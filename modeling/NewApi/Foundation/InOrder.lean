import NewApi.Foundation.GoString
import NewApi.Foundation.Joins

/-!
# Texts in order

Texts that are found again in other texts, in their order.
-/

namespace NewApi.Foundation

open List String

/-- The parts occur in the outputs in this order: each output is cut into
segments, and the parts are among them. -/
def InOrder (parts outputs : List String) : Prop :=
  ∃ segments : List (List String), outputs = segments.map join ∧ parts.Sublist segments.flatten

def textLength (texts : List String) : Nat := (join texts).length

@[simp] theorem textLength_nil : textLength [] = 0 := rfl

@[simp] theorem textLength_cons (s : String) (texts : List String) :
    textLength (s :: texts) = s.length + textLength texts := by
  simp [textLength, join_cons]

@[simp] theorem textLength_append (first second : List String) :
    textLength (first ++ second) = textLength first + textLength second := by
  simp [textLength, join_append]

theorem textLength_flatten (segments : List (List String)) :
    textLength segments.flatten = textLength (segments.map join) := by
  induction segments with
  | nil => rfl
  | cons segment segments ih =>
    rw [flatten_cons, textLength_append, ih, map_cons, textLength_cons]
    rfl

theorem textLength_le_of_sublist {first second : List String} (h : first.Sublist second) :
    textLength first ≤ textLength second := by
  induction h with
  | slnil => exact Nat.le_refl 0
  | cons =>
    rw [textLength_cons]
    omega
  | cons_cons =>
    rw [textLength_cons, textLength_cons]
    omega

theorem textLength_eq_zero {texts : List String} (h : textLength texts = 0) :
    ∀ s ∈ texts, s = "" := by
  intro s hs
  have hle := textLength_le_of_sublist (singleton_sublist.mpr hs)
  rw [textLength_cons, textLength_nil] at hle
  exact length_eq_zero_iff.mp (by omega)

namespace InOrder

variable {parts outputs : List String}

theorem of_sublist (h : parts.Sublist outputs) : InOrder parts outputs := by
  refine ⟨outputs.map fun s => [s], ?_, ?_⟩
  · simp [Function.comp_def]
  · simpa [← flatMap_def] using h

theorem of_join {texts : List String} (h : parts.Sublist texts) : InOrder parts [join texts] :=
  ⟨[texts], rfl, by simpa using h⟩

theorem singleton_iff {s : String} :
    InOrder parts [s] ↔ ∃ segments, s = join segments ∧ parts.Sublist segments := by
  constructor
  · rintro ⟨segments, hs, hsub⟩
    obtain ⟨segment, rfl, rfl⟩ := map_eq_singleton_iff.mp hs.symm
    exact ⟨segment, rfl, by simpa using hsub⟩
  · rintro ⟨segments, rfl, hsub⟩
    exact of_join hsub

theorem append {parts' : List String} {s t : String} (h : InOrder parts [s])
    (h' : InOrder parts' [t]) (between : String) :
    InOrder (parts ++ parts') [s ++ between ++ t] := by
  obtain ⟨segments, rfl, hsub⟩ := singleton_iff.mp h
  obtain ⟨segments', rfl, hsub'⟩ := singleton_iff.mp h'
  refine singleton_iff.mpr ⟨segments ++ between :: segments', ?_, ?_⟩
  · rw [String.join_append, String.join_cons, String.append_assoc]
  · exact hsub.append (hsub'.trans (sublist_cons_self between segments'))

theorem joinWith {pieces : List (List String)} {texts : List String}
    (h : List.Forall₂ (fun piece text => InOrder piece [text]) pieces texts) (sep : String) :
    InOrder pieces.flatten [joinWith sep texts] := by
  induction h with
  | nil => exact of_sublist (nil_sublist _)
  | @cons piece text pieces texts hhead htail ih =>
    cases htail with
    | nil =>
      rw [flatten_cons, flatten_nil, append_nil]
      exact hhead
    | cons => exact hhead.append ih sep

theorem textLength_le (h : InOrder parts outputs) : textLength parts ≤ textLength outputs := by
  obtain ⟨segments, rfl, hsub⟩ := h
  rw [← textLength_flatten]
  exact textLength_le_of_sublist hsub

end InOrder

end NewApi.Foundation
