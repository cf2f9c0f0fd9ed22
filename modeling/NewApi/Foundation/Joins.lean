import Mathlib.Data.List.Forall2

/-!
# Concatenations of shortened pieces

If every piece of an output is a part of the piece that was due, then the two
concatenations agree only if all pieces do: what one piece lacks, no other can
make up for.
-/

namespace NewApi.Foundation

open List

universe u v w

section

variable {α : Type*}

def NotLonger (given due : List α) : Prop := given.length ≤ due.length

variable {given due : List (List α)}

theorem length_flatten_le (h : List.Forall₂ NotLonger given due) :
    given.flatten.length ≤ due.flatten.length := by
  induction h with
  | nil => exact Nat.le_refl _
  | cons hpiece _ ih =>
    simp only [flatten_cons, length_append]
    exact Nat.add_le_add hpiece ih

theorem flatten_sublist_iff (h : List.Forall₂ NotLonger given due) :
    due.flatten.Sublist given.flatten ↔ given = due := by
  refine ⟨fun hsub => ?_, fun heq => heq ▸ List.Sublist.refl _⟩
  induction h with
  | nil => rfl
  | @cons g d givens dues hpiece hrest ih =>
    have hle := hsub.length_le
    have hrestle := length_flatten_le hrest
    have hpiecele : g.length ≤ d.length := hpiece
    simp only [flatten_cons, length_append] at hle
    have heq := hsub.eq_of_length (by simp only [flatten_cons, length_append]; omega)
    obtain ⟨rfl, htail⟩ := append_inj heq (by omega)
    rw [ih (htail ▸ List.Sublist.refl _)]

theorem flatten_eq_iff_of_sublist (h : List.Forall₂ List.Sublist given due) :
    given.flatten = due.flatten ↔ given = due := by
  have hshort : List.Forall₂ NotLonger given due := h.imp fun _ _ hpiece => hpiece.length_le
  refine ⟨fun heq => ?_, fun heq => heq ▸ rfl⟩
  exact (flatten_sublist_iff hshort).mp (heq ▸ List.Sublist.refl _)

def Within (s t : String) : Prop := s.toList.Sublist t.toList

theorem join_eq_iff_of_within {given due : List String} (h : List.Forall₂ Within given due) :
    String.join given = String.join due ↔ given = due := by
  have hlists : List.Forall₂ List.Sublist (given.map String.toList) (due.map String.toList) := by
    rw [forall₂_map_left_iff, forall₂_map_right_iff]
    exact h
  rw [← String.toList_inj, String.toList_join, String.toList_join, flatMap_def,
    flatMap_def, flatten_eq_iff_of_sublist hlists]
  exact List.map_inj_right fun _ _ => String.toList_inj.mp

theorem Within.refl (s : String) : Within s s := List.Sublist.refl _

theorem Within.empty (s : String) : Within "" s := nil_sublist _

theorem Within.left (s t : String) : Within s (s ++ t) := by
  unfold Within
  rw [String.toList_append]
  exact sublist_append_left _ _

theorem join_eq_empty_iff {texts : List String} : String.join texts = "" ↔ ∀ s ∈ texts, s = "" := by
  rw [← String.toList_inj, String.toList_join]
  simp

theorem join_eq_getLast_iff (texts : List String) :
    String.join texts = texts.getLast?.getD "" ↔ ∀ s ∈ texts.dropLast, s = "" := by
  rcases eq_nil_or_concat' texts with rfl | ⟨init, last, rfl⟩
  · simp
  · rw [String.join_append, getLast?_concat, dropLast_concat, ← join_eq_empty_iff]
    simp

theorem join_eq_head_iff (s : String) (texts : List String) :
    String.join (s :: texts) = s ↔ ∀ t ∈ texts, t = "" := by
  rw [String.join_cons, String.append_eq_left_iff, join_eq_empty_iff]

end

/-!
## Items that are passed on, some of them glued to their neighbours

Every item that is due is shown by an item that is given.  An item may be glued
to the one that follows, so that one given item shows them both.
-/

section

variable {δ : Type u} {γ : Type v} (Shows : δ → γ → Prop) (Glue : γ → γ → γ → Prop)

inductive Glued : List δ → List γ → Prop where
  | nil : Glued [] []
  | keep {x : δ} {y : γ} {xs : List δ} {ys : List γ} (hshow : Shows x y) (hrest : Glued xs ys) :
      Glued (x :: xs) (y :: ys)
  | glue {x : δ} {y z yz : γ} {xs : List δ} {ys : List γ} (hshow : Shows x y)
      (hrest : Glued xs (z :: ys)) (hglue : Glue y z yz) :
      Glued (x :: xs) (yz :: ys)

end

namespace Glued

variable {δ : Type u} {γ : Type v} {Shows : δ → γ → Prop} {Glue : γ → γ → γ → Prop}
variable {xs xs' : List δ} {ys ys' : List γ}

theorem append (h : Glued Shows Glue xs ys) (h' : Glued Shows Glue xs' ys') :
    Glued Shows Glue (xs ++ xs') (ys ++ ys') := by
  induction h with
  | nil => exact h'
  | keep hshow _ ih => exact .keep hshow ih
  | glue hshow _ hglue ih => exact .glue hshow ih hglue

theorem of_same {f : γ → δ} (h : ∀ y ∈ ys, Shows (f y) y) : Glued Shows Glue (ys.map f) ys := by
  induction ys with
  | nil => exact .nil
  | cons y ys ih => exact .keep (h y mem_cons_self) (ih fun z hz => h z (mem_cons_of_mem y hz))

theorem concat
    (hassoc : ∀ {a b c ab abc}, Glue a b ab → Glue ab c abc → ∃ bc, Glue b c bc ∧ Glue a bc abc)
    {x : δ} {y z yz : γ} (h : Glued Shows Glue xs [y]) (hshow : Shows x z) (hglue : Glue y z yz) :
    Glued Shows Glue (xs ++ [x]) [yz] := by
  generalize hys : [y] = ys at h
  induction h generalizing y yz with
  | nil => cases hys
  | keep hfirst hrest =>
    cases hys
    cases hrest
    exact .glue hfirst (.keep hshow .nil) hglue
  | glue hfirst _ hinner ih =>
    cases hys
    obtain ⟨bc, hbc, habc⟩ := hassoc hinner hglue
    exact .glue hfirst (ih hbc rfl) habc

theorem length_flatMap {τ : Type w} {due : δ → List τ} {given : γ → List τ}
    (h : Glued Shows Glue xs ys) (hshow : ∀ {x y}, Shows x y → (due x).length = (given y).length)
    (hglue : ∀ {y z yz}, Glue y z yz → (given yz).length = (given y).length + (given z).length) :
    (xs.flatMap due).length = (ys.flatMap given).length := by
  induction h with
  | nil => rfl
  | keep hfirst _ ih =>
    rw [flatMap_cons, flatMap_cons, length_append, length_append, hshow hfirst, ih]
  | glue hfirst _ hjoin ih =>
    rw [flatMap_cons, length_append] at ih
    rw [flatMap_cons, flatMap_cons, length_append, length_append, hshow hfirst, ih, hglue hjoin]
    omega

end Glued

end NewApi.Foundation
