import Mathlib.Data.List.Basic

/-!
# Code that emits events

An emitter changes a state and emits a list of events.  An observer folds the
events; `Triple` relates the observer and the state before and after, and is
proved piece by piece along the structure of the code.
-/

namespace NewApi.Foundation

universe u v w

def Emitter (σ : Type u) (ε : Type v) := σ → List ε × σ

variable {σ : Type u} {ε : Type v} {ρ : Type w} {α : Type*}

namespace Emitter

def skip : Emitter σ ε := fun s => ([], s)

def emit (events : σ → List ε) : Emitter σ ε := fun s => (events s, s)

def andThen (f g : Emitter σ ε) : Emitter σ ε := fun s => ((f s).1 ++ (g (f s).2).1, (g (f s).2).2)

def forEach (f : α → Emitter σ ε) : List α → Emitter σ ε
  | [] => skip
  | a :: inputs => (f a).andThen (forEach f inputs)

theorem forEach_append (f : α → Emitter σ ε) (first second : List α) (s : σ) :
    forEach f (first ++ second) s = (forEach f first).andThen (forEach f second) s := by
  induction first generalizing s with
  | nil => simp [forEach, andThen, skip]
  | cons a first ih => simp [forEach, andThen, ih]

theorem forEach_emit (f : α → List ε) (inputs : List α) (s : σ) :
    (forEach (fun a => emit fun _ => f a) inputs s).1 = inputs.flatMap f := by
  induction inputs generalizing s with
  | nil => rfl
  | cons a inputs ih =>
    rw [List.flatMap_cons, ← ih s]
    rfl

/-- From a state and an observer that satisfy `P`, the code ends in `Q`. -/
def Triple (read : ρ → ε → ρ) (P : ρ → σ → Prop) (f : Emitter σ ε) (Q : ρ → σ → Prop) : Prop :=
  ∀ r s, P r s → Q ((f s).1.foldl read r) (f s).2

variable {read : ρ → ε → ρ} {P Q R : ρ → σ → Prop} {f g : Emitter σ ε}

theorem Triple.andThen (hf : Triple read P f Q) (hg : Triple read Q g R) :
    Triple read P (f.andThen g) R := by
  intro r s hP
  simp only [Emitter.andThen, List.foldl_append]
  exact hg _ _ (hf r s hP)

theorem Triple.skip (h : ∀ r s, P r s → Q r s) : Triple read P (skip : Emitter σ ε) Q := h

theorem Triple.weaken (h : Triple read P f Q) (hpost : ∀ r s, Q r s → R r s) : Triple read P f R :=
  fun r s hP => hpost _ _ (h r s hP)

def Keeps {β : Type*} (part : σ → β) (f : Emitter σ ε) : Prop := ∀ s, part (f s).2 = part s

variable {β : Type*} {part : σ → β} {p : ε → Prop} {body : α → Emitter σ ε} {a : α}

theorem Keeps.andThen (hf : Keeps part f) (hg : Keeps part g) : Keeps part (f.andThen g) :=
  fun s => (hg (f s).2).trans (hf s)

theorem Triple.frame (h : Triple read P f Q) (hkeeps : Keeps part f) (F : β → Prop) :
    Triple read (fun r s => P r s ∧ F (part s)) f (fun r s => Q r s ∧ F (part s)) :=
  fun r s hP => ⟨h r s hP.1, (hkeeps s).symm ▸ hP.2⟩

def Emits (p : ε → Prop) (f : Emitter σ ε) : Prop := ∀ s, ∀ e ∈ (f s).1, p e

theorem Emits.andThen (hf : Emits p f) (hg : Emits p g) : Emits p (f.andThen g) := by
  intro s e he
  rcases List.mem_append.mp he with he | he
  · exact hf s e he
  · exact hg _ e he

theorem Emits.forEach (h : ∀ a, Emits p (body a)) (inputs : List α) :
    Emits p (Emitter.forEach body inputs) := by
  induction inputs with
  | nil =>
    intro s e he
    cases he
  | cons a inputs ih => exact (h a).andThen ih

theorem Triple.cons {inputs : List α} (ha : Triple read P (body a) Q)
    (hinputs : Triple read Q (forEach body inputs) R) :
    Triple read P (forEach body (a :: inputs)) R := ha.andThen hinputs

theorem Triple.append {first second : List α} (hfirst : Triple read P (forEach body first) Q)
    (hsecond : Triple read Q (forEach body second) R) :
    Triple read P (forEach body (first ++ second)) R := by
  intro r s h
  rw [forEach_append]
  exact hfirst.andThen hsecond r s h

theorem Triple.singleton (h : Triple read P (body a) Q) :
    Triple read P (Emitter.forEach body [a]) Q := h.cons (Triple.skip fun _ _ hQ => hQ)

end Emitter

end NewApi.Foundation
