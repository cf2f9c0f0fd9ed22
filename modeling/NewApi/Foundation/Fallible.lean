import Mathlib.Data.List.Forall2

/-!
# Computations that may fail

A chain of checks or a loop in `Except` that ends well: what each of its steps
gives, and what the whole loop keeps and collects.
-/

namespace NewApi.Foundation

open List

universe u v w

variable {ε : Type u} {α β σ : Type v} {x : Except ε α} {a : α} {c : Prop} {err : ε}

theorem bind_eq_ok {f : α → Except ε β} {b : β} :
    x >>= f = .ok b ↔ ∃ a, x = .ok a ∧ f a = .ok b := by
  cases x with
  | error | ok => simp [bind, Except.bind]

theorem pure_eq_ok {b : α} : (pure a : Except ε α) = .ok b ↔ a = b := by
  simp [pure, Except.pure]

theorem ite_error_eq_ok [Decidable c] :
    (if c then .error err else x) = .ok a ↔ ¬ c ∧ x = .ok a := by
  constructor
  · intro h
    split at h
    · cases h
    · next hc => exact ⟨hc, h⟩
  · rintro ⟨hc, h⟩
    rw [if_neg hc, h]

theorem ite_some_error_eq_ok [Decidable c] {x : Option (Except ε α)} :
    (if c then some (.error err) else x) = some (.ok a) ↔ ¬ c ∧ x = some (.ok a) := by
  constructor
  · intro h
    split at h
    · cases h
    · next hc => exact ⟨hc, h⟩
  · rintro ⟨hc, h⟩
    rw [if_neg hc, h]

theorem forall₂_of_mapM {δ : Type w} {f : δ → Except ε β} {inputs : List δ} {outputs : List β}
    (h : inputs.mapM f = .ok outputs) :
    List.Forall₂ (fun input output => f input = .ok output) inputs outputs := by
  induction inputs generalizing outputs with
  | nil =>
    rw [mapM_nil, pure_eq_ok] at h
    exact h ▸ .nil
  | cons input inputs ih =>
    rw [mapM_cons, bind_eq_ok] at h
    obtain ⟨output, houtput, h⟩ := h
    obtain ⟨rest, hrest, h⟩ := bind_eq_ok.mp h
    exact pure_eq_ok.mp h ▸ .cons houtput (ih hrest)

section

variable {δ : Type w} {step : σ → δ → Except ε σ} {inputs : List δ} {s s' : σ}

theorem foldlM_collect {γ : Type*} (get : σ → List γ) {out : δ → List γ}
    (hstep : ∀ {s b s'}, b ∈ inputs → step s b = .ok s' → get s' = get s ++ out b)
    (h : inputs.foldlM step s = .ok s') : get s' = get s ++ inputs.flatMap out := by
  induction inputs generalizing s with
  | nil =>
    rw [foldlM_nil, pure_eq_ok] at h
    simp [h]
  | cons b inputs ih =>
    rw [foldlM_cons, bind_eq_ok] at h
    obtain ⟨t, ht, hrest⟩ := h
    rw [ih (fun hb => hstep (mem_cons_of_mem b hb)) hrest, hstep mem_cons_self ht,
      flatMap_cons, append_assoc]

end

end NewApi.Foundation
