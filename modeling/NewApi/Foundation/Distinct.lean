import Mathlib.Data.Finset.Sort

/-!
# Keeping the first of each key

A pass over a list that skips every element whose key has been seen.
-/

namespace NewApi.Foundation

open List

universe u v

section

variable {α : Type u} {κ : Type v} [DecidableEq κ]

def distinctBy (key : α → κ) : List κ → List α → List α
  | _, [] => []
  | seen, a :: l =>
    if key a ∈ seen then distinctBy key seen l else a :: distinctBy key (key a :: seen) l

variable {key : α → κ} {seen : List κ} {l : List α} {a : α}

theorem mem_of_mem_distinctBy (h : a ∈ distinctBy key seen l) : a ∈ l ∧ key a ∉ seen := by
  induction l generalizing seen with
  | nil => simp [distinctBy] at h
  | cons b l ih =>
    simp only [distinctBy] at h
    split at h
    · obtain ⟨hl, hseen⟩ := ih h
      exact ⟨mem_cons_of_mem b hl, hseen⟩
    · next hb =>
      obtain rfl | hrest := mem_cons.mp h
      · exact ⟨mem_cons_self, hb⟩
      · obtain ⟨hl, hseen⟩ := ih hrest
        exact ⟨mem_cons_of_mem b hl, fun hin => hseen (mem_cons_of_mem _ hin)⟩

theorem exists_mem_distinctBy (hmem : a ∈ l) (hseen : key a ∉ seen) :
    ∃ b ∈ distinctBy key seen l, key b = key a := by
  induction l generalizing seen with
  | nil => cases hmem
  | cons b l ih =>
    simp only [distinctBy]
    by_cases hkey : key b = key a
    · rw [if_neg (by rwa [hkey])]
      exact ⟨b, mem_cons_self, hkey⟩
    have hrest : a ∈ l := by
      refine (mem_cons.mp hmem).resolve_left ?_
      rintro rfl
      exact hkey rfl
    split
    · exact ih hrest hseen
    have hseen' : key a ∉ key b :: seen := by
      simp only [mem_cons, not_or]
      exact ⟨fun h => hkey h.symm, hseen⟩
    obtain ⟨c, hc, hkeyc⟩ := ih hrest hseen'
    exact ⟨c, mem_cons_of_mem b hc, hkeyc⟩

theorem mem_distinctBy_append {first second : List α} (h : a ∈ distinctBy key seen first) :
    a ∈ distinctBy key seen (first ++ second) := by
  induction first generalizing seen with
  | nil => simp [distinctBy] at h
  | cons b first ih =>
    simp only [distinctBy, cons_append] at h ⊢
    split
    · next hb =>
      rw [if_pos hb] at h
      exact ih h
    · next hb =>
      rw [if_neg hb] at h
      obtain rfl | hrest := mem_cons.mp h
      · exact mem_cons_self
      · exact mem_cons_of_mem b (ih hrest)

theorem nodup_map_distinctBy (seen : List κ) (l : List α) :
    ((distinctBy key seen l).map key).Nodup := by
  induction l generalizing seen with
  | nil => simp [distinctBy]
  | cons a l ih =>
    simp only [distinctBy]
    split
    · exact ih seen
    rw [map_cons, nodup_cons]
    refine ⟨?_, ih _⟩
    intro h
    obtain ⟨b, hb, hkey⟩ := mem_map.mp h
    exact (mem_of_mem_distinctBy hb).2 (hkey ▸ mem_cons_self)

theorem forall_mem_distinctBy_iff :
    (∀ a ∈ l, a ∈ distinctBy key [] l) ↔ ∀ a ∈ l, ∀ b ∈ l, key a = key b → a = b := by
  constructor
  · intro h a ha b hb hkey
    exact inj_on_of_nodup_map (nodup_map_distinctBy [] l) (h a ha) (h b hb) hkey
  · intro h a ha
    obtain ⟨b, hb, hkey⟩ : ∃ b ∈ distinctBy key [] l, key b = key a :=
      exists_mem_distinctBy ha not_mem_nil
    rwa [h a ha b (mem_of_mem_distinctBy hb).1 hkey.symm]

end

/-!
## The distinct values of a list from the highest down

The value at position `i` has exactly `i` distinct values above it; only which
values occur matters, neither their order nor how often.
-/

variable {α : Type u} [LinearOrder α]

section

variable (l : List α)

def descending : List α := l.dedup.insertionSort (· ≥ ·)

theorem mem_descending {l : List α} {a : α} : a ∈ descending l ↔ a ∈ l := by
  rw [descending, mem_insertionSort, mem_dedup]

theorem nodup_descending : (descending l).Nodup :=
  (perm_insertionSort _ _).nodup_iff.mpr (nodup_dedup l)

theorem pairwise_descending : (descending l).Pairwise (· > ·) := by
  have hsorted : (descending l).Pairwise (· ≥ ·) := pairwise_insertionSort _ _
  refine (hsorted.and (nodup_descending l)).imp ?_
  rintro a b ⟨hge, hne⟩
  exact lt_of_le_of_ne hge hne.symm

theorem descending_congr {l l' : List α} (h : ∀ a, a ∈ l ↔ a ∈ l') :
    descending l = descending l' := by
  have hperm : (descending l).Perm (descending l') := by
    rw [perm_ext_iff_of_nodup (nodup_descending l) (nodup_descending l')]
    intro a
    rw [mem_descending, mem_descending, h]
  have hsorted (l : List α) : (descending l).Pairwise (· ≥ ·) := pairwise_insertionSort _ _
  exact hperm.eq_of_pairwise' (hsorted l) (hsorted l')

theorem length_descending : (descending l).length = l.toFinset.card := by
  rw [← toFinset_card_of_nodup (nodup_descending l)]
  congr 1
  ext a
  rw [mem_toFinset, mem_toFinset, mem_descending]

theorem descending_ne_nil {l : List α} (h : l ≠ []) : descending l ≠ [] := by
  obtain ⟨a, ha⟩ := exists_mem_of_ne_nil l h
  exact ne_nil_of_mem (mem_descending.mpr ha)

theorem filter_lt_of_pairwise {before after : List α} {a : α}
    (h : (before ++ a :: after).Pairwise (· > ·)) :
    (before ++ a :: after).filter (fun b => decide (a < b)) = before := by
  obtain ⟨-, hafter, hbefore⟩ := pairwise_append.mp h
  have hkept : before.filter (fun b => decide (a < b)) = before := by
    rw [filter_eq_self]
    exact fun b hb => decide_eq_true (hbefore b hb a mem_cons_self)
  have hdropped : (a :: after).filter (fun b => decide (a < b)) = [] := by
    rw [filter_eq_nil_iff]
    intro b hb
    obtain rfl | hlater := mem_cons.mp hb
    · simp
    · have hlt : b < a := (pairwise_cons.mp hafter).1 b hlater
      simpa using hlt.le
  rw [filter_append, hkept, hdropped, append_nil]

theorem card_above_descending {i : Nat} (hi : i < (descending l).length) :
    (l.toFinset.filter fun b => (descending l).get ⟨i, hi⟩ < b).card = i := by
  have hsplit : descending l = (descending l).take i ++
      (descending l).get ⟨i, hi⟩ :: (descending l).drop (i + 1) := by
    rw [get_eq_getElem, cons_getElem_drop_succ, take_append_drop]
  have hfilter : (descending l).filter (fun b => decide ((descending l).get ⟨i, hi⟩ < b)) =
      (descending l).take i := by
    have hpairwise := pairwise_descending l
    rw [hsplit] at hpairwise
    have h := filter_lt_of_pairwise hpairwise
    rwa [← hsplit] at h
  have hfinset : (l.toFinset.filter fun b => (descending l).get ⟨i, hi⟩ < b) =
      ((descending l).take i).toFinset := by
    rw [← hfilter]
    ext b
    simp [mem_descending]
  rw [hfinset, toFinset_card_of_nodup ((nodup_descending l).sublist (take_sublist _ _)),
    length_take_of_le hi.le]

end

end NewApi.Foundation
