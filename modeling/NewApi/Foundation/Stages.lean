import Mathlib.Data.List.Rotate
import NewApi.Foundation.Emit

/-!
# Searches through stages

A search goes through stages in order and tries each of them several times.  A
stage may be left early, and is left after `tries` more tries at the latest.
-/

namespace NewApi.Foundation

open List Nat

universe u

section

structure Place where
  stage : Nat
  tried : Nat

/-- From `p` the search tries stage `i` for the `q`-th time and goes on from `p'`.  A stage
that it moves on to begins at zero. -/
structure Visits (stages tries : Nat) (p : Place) (i q : Nat) (p' : Place) : Prop where
  stage_le : p.stage ≤ i
  lt_stages : i < stages
  tried_eq : q = if i = p.stage then p.tried else 0
  next : p' = ⟨i, q + 1⟩ ∨ p' = ⟨i + 1, 0⟩ ∧ tries ≤ q

def remaining (stages tries : Nat) (p : Place) : Nat :=
  if p.stage < stages then (stages - p.stage) * (tries + 1) + 1 - p.tried else 1

section Remaining

variable {stages tries : Nat} {p p' : Place} {i q : Nat}

theorem remaining_pos (h : p.tried ≤ tries) : 0 < remaining stages tries p := by
  unfold remaining
  split
  · next hlt =>
    have hone : tries + 1 ≤ (stages - p.stage) * (tries + 1) := Nat.le_mul_of_pos_left _ (by omega)
    omega
  · exact Nat.one_pos

theorem remaining_le (h : 0 < p.tried) : remaining stages tries p ≤ (tries + 1) * max 1 stages := by
  unfold remaining
  split
  · have hmul : (stages - p.stage) * (tries + 1) ≤ max 1 stages * (tries + 1) :=
      mul_le_mul_right _ (by omega)
    rw [Nat.mul_comm (tries + 1)]
    omega
  · exact Nat.mul_pos (Nat.succ_pos _) (by omega)

theorem remaining_next_stage (stages tries i : Nat) :
    remaining stages tries ⟨i + 1, 0⟩ = (stages - (i + 1)) * (tries + 1) + 1 := by
  unfold remaining
  split
  · rfl
  next hge =>
  have hzero : stages - (i + 1) = 0 := Nat.sub_eq_zero_of_le (Nat.le_of_not_lt hge)
  simp [hzero]

theorem visits_from_stage (tries : Nat) (hi : i < stages) :
    (stages - i) * (tries + 1) = (stages - (i + 1)) * (tries + 1) + (tries + 1) := by
  rw [← succ_mul]
  congr 1
  omega

theorem Visits.remaining_next (h : Visits stages tries p i q p') (hq : q ≤ tries) :
    remaining stages tries p' + q = (stages - (i + 1)) * (tries + 1) + (tries + 1) := by
  have hstage := visits_from_stage tries h.lt_stages
  obtain rfl | ⟨rfl, hlast⟩ := h.next
  · have hstay : remaining stages tries ⟨i, q + 1⟩ = (stages - i) * (tries + 1) + 1 - (q + 1) :=
      if_pos h.lt_stages
    omega
  · rw [remaining_next_stage]
    omega

theorem Visits.remaining_lt (h : Visits stages tries p i q p') (hp : p.tried ≤ tries) :
    remaining stages tries p' < remaining stages tries p := by
  have hhere : remaining stages tries p = (stages - p.stage) * (tries + 1) + 1 - p.tried :=
    if_pos (lt_of_le_of_lt h.stage_le h.lt_stages)
  have hq := h.tried_eq
  by_cases hsame : i = p.stage
  · rw [if_pos hsame] at hq
    have hrest := h.remaining_next (hq ▸ hp)
    have hstage := visits_from_stage tries h.lt_stages
    rw [hhere, ← hsame]
    omega
  rw [if_neg hsame] at hq
  have hrest := h.remaining_next (hq ▸ zero_le _)
  -- the stage of `p` still held `tries + 1` visits that are skipped
  have hskip : (stages - (i + 1)) * (tries + 1) + 2 * (tries + 1) ≤
      (stages - p.stage) * (tries + 1) := by
    rw [← Nat.add_mul]
    have := h.lt_stages
    have := h.stage_le
    exact mul_le_mul_right _ (by omega)
  omega

end Remaining

section Forward

variable {α : Type u} [LE α] {level : Nat → Nat → α} {seen : List (Nat × α)}
variable {stages tries : Nat} {p p' : Place} {i q : Nat}

/-- A later visit is to a later stage, or to the same one at no higher a level. -/
def Forward (earlier later : Nat × α) : Prop :=
  earlier.1 ≤ later.1 ∧ (earlier.1 = later.1 → later.2 ≤ earlier.2)

def Behind (level : Nat → Nat → α) (seen : List (Nat × α)) (p : Place) : Prop :=
  ∀ v ∈ seen, v.1 ≤ p.stage ∧ (v.1 = p.stage → ∀ t, p.tried ≤ t → level p.stage t ≤ v.2)

theorem Behind.of_tried_le (h : Behind level seen p) {t : Nat} (ht : p.tried ≤ t) :
    Behind level seen ⟨p.stage, t⟩ := by
  intro v hv
  obtain ⟨hle, hbound⟩ := h v hv
  exact ⟨hle, fun hsame t' ht' => hbound hsame t' (le_trans ht ht')⟩

theorem Visits.forward (h : Visits stages tries p i q p') (hb : Behind level seen p) :
    ∀ v ∈ seen, Forward v (i, level i q) := by
  intro v hv
  obtain ⟨hle, hbound⟩ := hb v hv
  refine ⟨le_trans hle h.stage_le, fun hsame => ?_⟩
  have hsame : v.1 = i := hsame
  -- the visit is to the stage of `v`, so the search has not moved on since
  have hi : i = p.stage := le_antisymm (hsame ▸ hle) h.stage_le
  have hq : q = p.tried := by rw [h.tried_eq, if_pos hi]
  rw [hi, hq]
  exact hbound (hsame.trans hi) p.tried (le_refl _)

theorem Visits.behind (h : Visits stages tries p i q p')
    (hlevel : ∀ s t t', t ≤ t' → level s t' ≤ level s t) (hb : Behind level seen p) :
    Behind level (seen ++ [(i, level i q)]) p' := by
  intro v hv
  obtain hv | hv := List.mem_append.mp hv
  · obtain ⟨hle, hbound⟩ := hb v hv
    have hvi : v.1 ≤ i := le_trans hle h.stage_le
    obtain rfl | ⟨rfl, -⟩ := h.next
    · refine ⟨hvi, fun hsame t ht => ?_⟩
      have hsame : v.1 = i := hsame
      have hi : i = p.stage := le_antisymm (hsame ▸ hle) h.stage_le
      have hq : q = p.tried := by rw [h.tried_eq, if_pos hi]
      have ht : q + 1 ≤ t := ht
      change level i t ≤ v.2
      rw [hi]
      exact hbound (hsame.trans hi) t (by omega)
    · refine ⟨le_succ_of_le hvi, fun hsame => ?_⟩
      have hsame : v.1 = i + 1 := hsame
      omega
  · obtain rfl := List.mem_singleton.mp hv
    obtain rfl | ⟨rfl, -⟩ := h.next
    · exact ⟨le_refl _, fun _ t ht => hlevel i q t (le_of_succ_le ht)⟩
    refine ⟨le_succ i, fun hsame => ?_⟩
    have hsame : i = i + 1 := hsame
    omega

end Forward

end

/-!
## Taking turns

A circular scan starts at a saved position, stops at the first enabled one and
saves the position after it.  The enabled positions in the order of the scan are
a queue: a scan takes its head and puts it at the end.
-/

def circular (n start : Nat) : List Nat := (List.range n).map fun i => (start + i) % n

section

variable (enabled : Nat → Bool)

def scan (n start : Nat) : Option Nat := (circular n start).find? enabled

def turns (n start : Nat) : List Nat := (circular n start).filter enabled

theorem circular_eq_rotate (n start : Nat) : circular n start = (List.range n).rotate start := by
  refine ext_getElem (by simp [circular]) fun i hi _ => ?_
  simp [circular, List.getElem_rotate, Nat.add_comm]

theorem turns_perm (n start : Nat) :
    (turns enabled n start).Perm ((List.range n).filter enabled) := by
  unfold turns
  rw [circular_eq_rotate]
  exact (rotate_perm (List.range n) start).filter enabled

theorem scan_eq_head? (n start : Nat) : scan enabled n start = (turns enabled n start).head? := by
  rw [turns, head?_filter]
  rfl

end

/-- The scan that starts after an enabled position comes to that position last. -/
theorem turns_next {enabled : Nat → Bool} {n start i : Nat} (h : scan enabled n start = some i) :
    ∃ rest, turns enabled n start = i :: rest ∧ turns enabled n ((i + 1) % n) = rest ++ [i] := by
  obtain ⟨hi, before, after, hsplit, hbefore⟩ := find?_eq_some_iff_append.mp h
  have hskipped : before.filter enabled = [] :=
    filter_eq_nil_iff.mpr fun a ha => by simpa using hbefore a ha
  refine ⟨after.filter enabled, ?_, ?_⟩
  · rw [turns, hsplit, filter_append, hskipped, filter_cons_of_pos hi]
    rfl
  · -- the new scan is the old one turned by what the old one has passed
    have hlength : before.length < (circular n start).length := by
      rw [hsplit, length_append, length_cons]
      omega
    have hposition : (start + before.length) % n = i := by
      have hget : (circular n start)[before.length] = i := by simp [hsplit]
      simpa [circular] using hget
    have hturned : circular n ((i + 1) % n) = (circular n start).rotate (before.length + 1) := by
      rw [circular_eq_rotate, circular_eq_rotate, rotate_rotate, ← hposition, mod_add_mod,
        ← rotate_mod (List.range n) (start + _), length_range, Nat.add_assoc]
    have hrotated : (circular n start).rotate (before.length + 1) = after ++ (before ++ [i]) := by
      rw [hsplit, append_cons]
      have hblocks := rotate_append_length_eq (before ++ [i]) after
      rwa [length_append, length_singleton] at hblocks
    rw [turns, hturned, hrotated, filter_append, filter_append, hskipped, filter_singleton, hi]
    rfl

theorem Emitter.forEach_turns {σ ε α β : Type*} {body : α → Emitter σ ε} {takesTurn : α → Bool}
    {out : β → ε} {Queue : σ → List β → Prop} {inputs : List α}
    (hkeep : ∀ a ∈ inputs, takesTurn a = false → ∀ s queue, Queue s queue →
      (body a s).1 = [] ∧ Queue (body a s).2 queue)
    (hturn : ∀ a ∈ inputs, takesTurn a = true → ∀ s b queue, Queue s (b :: queue) →
      (body a s).1 = [out b] ∧ Queue (body a s).2 (queue ++ [b])) {s : σ} {upcoming passed : List β}
    (hqueue : Queue s (upcoming ++ passed)) (hcount : inputs.countP takesTurn = upcoming.length) :
    (forEach body inputs s).1 = upcoming.map out := by
  induction inputs generalizing s upcoming passed with
  | nil =>
    obtain rfl := length_eq_zero_iff.mp hcount.symm
    rfl
  | cons a inputs ih =>
    have hrest := @ih (fun a ha => hkeep a (mem_cons_of_mem _ ha))
      (fun a ha => hturn a (mem_cons_of_mem _ ha))
    unfold forEach andThen
    cases hturns : takesTurn a with
    | false =>
      obtain ⟨hsilent, hqueue'⟩ := hkeep a mem_cons_self hturns s _ hqueue
      rw [countP_cons_of_neg (by simp [hturns])] at hcount
      simp only [hsilent, nil_append]
      exact hrest hqueue' hcount
    | true =>
      rw [countP_cons_of_pos hturns] at hcount
      cases upcoming with
      | nil => simp at hcount
      | cons b upcoming =>
        obtain ⟨hemits, hqueue'⟩ := hturn a mem_cons_self hturns s b (upcoming ++ passed) hqueue
        rw [append_assoc] at hqueue'
        simp only [hemits, map_cons, singleton_append]
        rw [hrest hqueue' (by simpa using hcount)]

end NewApi.Foundation
