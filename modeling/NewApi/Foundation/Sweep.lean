import Mathlib.Data.List.Basic
import Mathlib.Data.List.TakeWhile
import NewApi.Foundation.Fuel

/-!
# Sweeping a queue in batches

A job takes the first `w` items of a queue, works on each and starts over as
long as it has counted `w` of them.  Items that are done leave the queue; kept
ones are counted and come back; skipped ones come back and are not counted; on
a hung one the job does not return.
-/

namespace NewApi.Foundation

open List

inductive SweepItem where
  | skipped
  | kept
  | done
  | hung
  deriving DecidableEq

open SweepItem

namespace SweepItem

def counted : SweepItem → Bool
  | .kept | .done => true
  | .skipped | .hung => false

end SweepItem

def sweepRest (w : Nat) (items : List SweepItem) : List SweepItem :=
  (items.take w).filter (fun item => decide (item ≠ .done)) ++ items.drop w

def sweepBatch (w : Nat) (items : List SweepItem) : Option (List SweepItem × Bool) :=
  if .hung ∈ items.take w then none
  else some (sweepRest w items, decide (w ≤ (items.take w).countP counted))

def sweep (w : Nat) (items : List SweepItem) : Nat → Option (List SweepItem) :=
  loopFrom (fun _ => sweepBatch w) items

/-- How far into `items` the first batches get, if `k` kept items stand before it:
each batch is filled up with as many items as there is room left. -/
def sweepReach (w k : Nat) (items : List SweepItem) : Nat → Nat
  | 0 => w - k
  | t + 1 =>
    let reached := sweepReach w k items t
    reached + (w - k - (items.take reached).count .kept)

/-- The batches that reach this far meet no hung item, and one of them is not
counted in full. -/
def SweepSettles (w k : Nat) (items : List SweepItem) (t : Nat) : Prop :=
  .hung ∉ items.take (sweepReach w k items t) ∧
    (items.length < sweepReach w k items t ∨ .skipped ∈ items.take (sweepReach w k items t))

theorem sweepReach_succ (w k : Nat) (items : List SweepItem) (t : Nat) :
    sweepReach w k items (t + 1) =
      (w - k) + sweepReach w (k + (items.take (w - k)).count .kept) (items.drop (w - k)) t := by
  induction t with
  | zero =>
    simp only [sweepReach]
    omega
  | succ t ih =>
    rw [sweepReach, ih, sweepReach]
    simp only [take_add, count_append]
    omega

theorem le_sweepReach (w k : Nat) (items : List SweepItem) (t : Nat) :
    w - k ≤ sweepReach w k items t := by
  cases t with
  | zero => exact Nat.le_refl _
  | succ =>
    rw [sweepReach_succ]
    omega

theorem sweepReach_full (k : Nat) (items : List SweepItem) (t : Nat) :
    sweepReach k k items t = 0 := by
  induction t with
  | zero => simp [sweepReach]
  | succ t ih => simp [sweepReach, ih]

section

variable {w k : Nat} {items : List SweepItem}

section

variable (hhung : .hung ∉ items.take (w - k)) (hskip : .skipped ∉ items.take (w - k))
  (hfull : w - k ≤ items.length)
include hhung hskip hfull

theorem sweepSettles_succ (t : Nat) : SweepSettles w k items (t + 1) ↔
      SweepSettles w (k + (items.take (w - k)).count .kept) (items.drop (w - k)) t := by
  unfold SweepSettles
  rw [sweepReach_succ, take_add, mem_append, mem_append, length_drop]
  simp only [hhung, hskip, false_or]
  refine and_congr_right fun _ => or_congr_left ?_
  omega

theorem exists_sweepSettles_iff :
    (∃ t, SweepSettles w k items t) ↔
      ∃ t, SweepSettles w (k + (items.take (w - k)).count .kept) (items.drop (w - k)) t := by
  constructor
  · rintro ⟨t, ht⟩
    cases t with
    | zero =>
      rcases ht.2 with hshort | hmem
      · simp only [sweepReach] at hshort
        omega
      · exact absurd hmem hskip
    | succ t => exact ⟨t, (sweepSettles_succ hhung hskip hfull t).mp ht⟩
  · rintro ⟨t, ht⟩
    exact ⟨t + 1, (sweepSettles_succ hhung hskip hfull t).mpr ht⟩

end

theorem not_sweepSettles_full (k : Nat) (items : List SweepItem) (t : Nat) :
    ¬ SweepSettles k k items t := by
  simp [SweepSettles, sweepReach_full]

theorem not_sweepSettles_hung (hhung : .hung ∈ items.take (w - k)) (t : Nat) :
    ¬ SweepSettles w k items t := by
  rintro ⟨hnone, -⟩
  exact hnone (take_subset_take_left items (le_sweepReach w k items t) hhung)

end

section Batch

variable {w k : Nat} {items : List SweepItem}

section

variable (hk : k ≤ w)
include hk

theorem take_kept_append :
    (List.replicate k kept ++ items).take w = List.replicate k .kept ++ items.take (w - k) := by
  rw [take_append, length_replicate, take_of_length_le (by simpa using hk)]

theorem drop_kept_append : (List.replicate k kept ++ items).drop w = items.drop (w - k) := by
  rw [drop_append, length_replicate, drop_eq_nil_of_le (by simpa using hk), nil_append]

theorem sweepBatch_hung (hhung : .hung ∈ items.take (w - k)) :
    sweepBatch w (List.replicate k .kept ++ items) = none := by
  rw [sweepBatch, take_kept_append hk, if_pos (mem_append_right _ hhung)]

theorem sweepBatch_short (hhung : .hung ∉ items.take (w - k))
    (hshort : items.length < w - k ∨ .skipped ∈ items.take (w - k)) :
    ∃ rest, sweepBatch w (List.replicate k .kept ++ items) = some (rest, false) := by
  have hcount : k + (items.take (w - k)).countP counted < w := by
    have hle := countP_le_length (p := counted) (l := items.take (w - k))
    have hlen := length_take (i := w - k) (l := items)
    rcases hshort with hlength | hskip
    · omega
    have hne : (items.take (w - k)).countP counted ≠ (items.take (w - k)).length := by
      intro heq
      have hall := countP_eq_length.mp heq _ hskip
      contradiction
    omega
  refine ⟨sweepRest w (List.replicate k .kept ++ items), ?_⟩
  rw [sweepBatch, take_kept_append hk, if_neg (by simp [hhung]), countP_append, countP_replicate]
  simp [counted, hcount]

theorem sweepBatch_full (hhung : .hung ∉ items.take (w - k)) (hskip : .skipped ∉ items.take (w - k))
    (hfull : w - k ≤ items.length) :
    sweepBatch w (List.replicate k .kept ++ items) =
      some (List.replicate (k + (items.take (w - k)).count .kept) .kept ++
        items.drop (w - k), true) := by
  have hkinds : ∀ item ∈ items.take (w - k), item = .kept ∨ item = .done := by
    intro item hitem
    cases item with
    | skipped => exact absurd hitem hskip
    | kept => exact .inl rfl
    | done => exact .inr rfl
    | hung => exact absurd hitem hhung
  have hcount : (items.take (w - k)).countP counted = w - k := by
    rw [countP_eq_length.mpr, length_take, min_eq_left hfull]
    intro item hitem
    rcases hkinds item hitem with rfl | rfl <;> rfl
  have hrest : (items.take (w - k)).filter (fun item => decide (item ≠ .done)) =
      List.replicate ((items.take (w - k)).count .kept) .kept := by
    rw [← List.filter_eq]
    apply filter_congr
    intro item hitem
    rcases hkinds item hitem with rfl | rfl <;> rfl
  rw [sweepBatch, sweepRest, take_kept_append hk, drop_kept_append hk,
    if_neg (by simp [hhung]), filter_append, hrest, countP_append, hcount,
    countP_replicate, replicate_add]
  simp [counted, hk]

end

end Batch

theorem map_filter_take {α : Type} [DecidableEq α] {queue : List α} (hnodup : queue.Nodup)
    (item : α → SweepItem) (w : Nat) :
    (queue.filter fun a => !(decide (a ∈ queue.take w) && decide (item a = .done))).map item =
      sweepRest w (queue.map item) := by
  have hsplit : ∀ p : α → Bool,
      queue.filter p = (queue.take w).filter p ++ (queue.drop w).filter p := by
    intro p
    rw [← filter_append, take_append_drop]
  have htake : ((queue.take w).filter fun a =>
      !(decide (a ∈ queue.take w) && decide (item a = .done))) =
      (queue.take w).filter fun a => decide (item a ≠ .done) := by
    apply filter_congr
    intro a ha
    simp [ha]
  have hdrop : ((queue.drop w).filter fun a =>
      !(decide (a ∈ queue.take w) && decide (item a = .done))) = queue.drop w := by
    rw [filter_eq_self]
    intro a ha
    have hlater : a ∉ queue.take w := fun h => disjoint_take_drop hnodup le_rfl h ha
    simp [hlater]
  rw [hsplit, htake, hdrop, sweepRest, map_append, ← map_take, ← map_drop, filter_map]
  rfl

theorem stable_sweepBatch (w : Nat) (items : List SweepItem) :
    Stable fun _ : Nat => sweepBatch w items := .const _

theorem not_ends_sweep_full (k : Nat) (items : List SweepItem) :
    ¬ Ends (sweep k (List.replicate k .kept ++ items)) := by
  refine not_ends_loopFrom (P := fun s => s = List.replicate k .kept ++ items) ?_ rfl
  rintro _ rfl n next hnext
  have hbatch : sweepBatch k (List.replicate k .kept ++ items) = some (_, true) :=
    sweepBatch_full (Nat.le_refl k) (by simp) (by simp) (by simp)
  rw [hbatch] at hnext
  cases hnext
  simp

/-- A sweep ends exactly when some batch is not counted in full and no hung item
stands within the reach of the batches up to it. -/
theorem ends_sweep_iff {w k : Nat} (hk : k ≤ w) (items : List SweepItem) :
    Ends (sweep w (List.replicate k .kept ++ items)) ↔ ∃ t, SweepSettles w k items t := by
  induction hlen : items.length using Nat.strongRecOn generalizing k items with
  | ind m ih =>
    by_cases hroom : k = w
    · subst hroom
      exact iff_of_false (not_ends_sweep_full k items)
        fun ⟨t, ht⟩ => not_sweepSettles_full k items t ht
    by_cases hhung : .hung ∈ items.take (w - k)
    · refine iff_of_false ?_ fun ⟨t, ht⟩ => not_sweepSettles_hung hhung t ht
      intro hends
      obtain ⟨next, n, hnext⟩ := ends_body_of_ends_loopFrom (stable_sweepBatch w) hends
      rw [sweepBatch_hung hk hhung] at hnext
      contradiction
    by_cases hshort : items.length < w - k ∨ .skipped ∈ items.take (w - k)
    · refine iff_of_true ?_ ⟨0, hhung, hshort⟩
      obtain ⟨rest, hrest⟩ := sweepBatch_short hk hhung hshort
      exact ends_loopFrom_of_stop (stable_sweepBatch w) ⟨0, hrest⟩
    obtain ⟨hfull, hskip⟩ := not_or.mp hshort
    have hfull : w - k ≤ items.length := by omega
    have hcount := count_le_length (a := kept) (l := items.take (w - k))
    have htake := length_take (i := w - k) (l := items)
    have hdrop := length_drop (i := w - k) (l := items)
    have hagain := sweepBatch_full hk hhung hskip hfull
    rw [exists_sweepSettles_iff hhung hskip hfull,
      ← ih (items.drop (w - k)).length (by omega) (by omega) _ rfl]
    exact ends_loopFrom_again (stable_sweepBatch w) ⟨0, hagain⟩

theorem length_takeWhile_lt {r : Nat} {items : List SweepItem} (hskip : .skipped ∈ items.take r) :
    (items.takeWhile fun item => decide (item ≠ .skipped)).length < r := by
  by_contra hle
  have hsub : items.take r <+: items.takeWhile fun item => decide (item ≠ .skipped) := by
    refine prefix_of_prefix_length_le ( take_prefix r items) ( takeWhile_prefix _) ?_
    have hlen := length_take_le r items
    omega
  have hkept := mem_takeWhile_imp (hsub.subset hskip)
  simp at hkept

theorem exists_sweepSettles_iff_count {w k : Nat} (hk : k ≤ w) {items : List SweepItem}
    (hnone : .hung ∉ items) :
    (∃ t, SweepSettles w k items t) ↔
      k + (items.takeWhile fun item => decide (item ≠ .skipped)).count .kept < w := by
  induction hlen : items.length using Nat.strongRecOn generalizing k items with
  | ind m ih =>
    by_cases hroom : k = w
    · subst hroom
      exact iff_of_false (fun ⟨t, ht⟩ => not_sweepSettles_full k items t ht) (by omega)
    have hhung : .hung ∉ items.take (w - k) := fun h => hnone (mem_of_mem_take h)
    by_cases hshort : items.length < w - k ∨ .skipped ∈ items.take (w - k)
    · refine iff_of_true ⟨0, hhung, hshort⟩ ?_
      have hcount := count_le_length (a := kept)
        (l := items.takeWhile fun item => decide (item ≠ .skipped))
      have hlt : (items.takeWhile fun item => decide (item ≠ .skipped)).length < w - k := by
        rcases hshort with hlength | hskip
        · have hle := (takeWhile_sublist (l := items)
            fun item => decide (item ≠ .skipped)).length_le
          omega
        · exact length_takeWhile_lt hskip
      omega
    · obtain ⟨hfull, hskip⟩ := not_or.mp hshort
      have hfull : w - k ≤ items.length := by omega
      have hcount := count_le_length (a := kept) (l := items.take (w - k))
      have htake := length_take (i := w - k) (l := items)
      have hdrop := length_drop (i := w - k) (l := items)
      have hsplit : items.takeWhile (fun item => decide (item ≠ .skipped)) =
          items.take (w - k) ++
            (items.drop (w - k)).takeWhile fun item => decide (item ≠ .skipped) := by
        conv_lhs => rw [← take_append_drop (w - k) items]
        refine takeWhile_append_of_pos ?_
        intro item hitem
        simp only [decide_eq_true_eq]
        rintro rfl
        exact hskip hitem
      rw [exists_sweepSettles_iff hhung hskip hfull, hsplit, count_append,
        ih (items.drop (w - k)).length (by omega) (by omega)
          (fun h => hnone (mem_of_mem_drop h)) rfl]
      omega

end NewApi.Foundation
