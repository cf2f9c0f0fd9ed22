import Mathlib.Data.Nat.Count

/-!
# Draws by running subtraction

A number is drawn below the sum of the weights of a list, and the weights are
taken off it one after another until what is left passes a test.  With the test
`· < 0` every element has exactly its weight of the draws; with `· ≤ 0` all draws
but the first move by one place.
-/

namespace NewApi.Foundation

open List Nat

universe u

variable {α : Type u}

def total (weight : α → Nat) : List α → Nat
  | [] => 0
  | a :: l => weight a + total weight l

def draw (stop : Int → Bool) (weight : α → Nat) : Int → List α → Option α
  | _, [] => none
  | r, a :: l =>
    if stop (r - weight a) = true then some a else draw stop weight (r - weight a) l

theorem total_eq_zero_iff {weight : α → Nat} {l : List α} :
    total weight l = 0 ↔ ∀ a ∈ l, weight a = 0 := by
  induction l with
  | nil => simp [total]
  | cons a l ih => simp [total, ih]

theorem total_mul_add (weight : α → Nat) (factor adjustment : Nat) (l : List α) :
    total (fun a => weight a * factor + adjustment) l =
      total weight l * factor + l.length * adjustment := by
  induction l with
  | nil => simp [total]
  | cons a l ih =>
    rw [total, total, ih, length_cons, Nat.add_mul, Nat.succ_mul]
    omega

theorem count_congr {p q : Nat → Prop} [DecidablePred p] [DecidablePred q] {n : Nat}
    (h : ∀ k < n, p k ↔ q k) : count p n = count q n :=
  le_antisymm (count_mono_left fun k hk => (h k hk).mp) (count_mono_left fun k hk => (h k hk).mpr)

theorem draw_mem {stop : Int → Bool} {weight : α → Nat} {l : List α} {r : Int} {a : α}
    (h : draw stop weight r l = some a) : a ∈ l := by
  induction l generalizing r with
  | nil => simp [draw] at h
  | cons b l ih =>
    simp only [draw] at h
    split at h
    · exact mem_cons.mpr (.inl (Option.some.inj h).symm)
    · exact mem_cons_of_mem b (ih h)

section Strict

variable (weight : α → Nat) {a : α} {l : List α} {r : Nat}

theorem draw_cons_of_lt (h : r < weight a) : draw (· < 0) weight r (a :: l) = some a := by
  have hneg : (r : Int) - weight a < 0 := by omega
  simp [draw, hneg]

theorem draw_cons_add (a : α) (l : List α) (r : Nat) :
    draw (· < 0) weight ↑(weight a + r) (a :: l) = draw (· < 0) weight r l := by
  have hleft : ((weight a + r : Nat) : Int) - weight a = r := by omega
  have hstays : ¬ (r : Int) < 0 := by omega
  simp only [draw, hleft, decide_eq_true_eq, if_neg hstays]

theorem draw_isSome (h : r < total weight l) : (draw (· < 0) weight r l).isSome := by
  induction l generalizing r with
  | nil => simp [total] at h
  | cons a l ih =>
    obtain hlt | hge := lt_or_ge r (weight a)
    · rw [draw_cons_of_lt weight hlt]
      rfl
    · obtain ⟨k, rfl⟩ := Nat.exists_eq_add_of_le hge
      rw [draw_cons_add]
      exact ih (by simpa [total] using h)

theorem exists_draw_lt {n : Nat} (hmem : a ∈ l) (hn : n < weight a) :
    ∃ r : Nat, r + n < total weight l ∧ draw (· < 0) weight r l = some a := by
  induction l with
  | nil => cases hmem
  | cons b l ih =>
    obtain rfl | hrest := mem_cons.mp hmem
    · refine ⟨0, ?_, draw_cons_of_lt weight (by omega)⟩
      simp only [total]
      omega
    · obtain ⟨r, hr, hdraw⟩ := ih hrest
      refine ⟨weight b + r, ?_, ?_⟩
      · simp only [total]
        omega
      · rw [draw_cons_add, hdraw]

variable [DecidableEq α]

theorem count_draw_cons (a b : α) (l : List α) :
    count (fun r : Nat => draw (· < 0) weight r (b :: l) = some a) (total weight (b :: l)) =
      (if b = a then weight b else 0) +
        count (fun r : Nat => draw (· < 0) weight r l = some a) (total weight l) := by
  have hfirst : count (fun r : Nat => draw (· < 0) weight r (b :: l) = some a) (weight b) =
      if b = a then weight b else 0 := by
    split
    · next heq =>
      subst heq
      rw [count_iff_forall]
      exact fun r hr => draw_cons_of_lt weight hr
    · next hne =>
      rw [count_iff_forall_not]
      intro r hr h
      rw [draw_cons_of_lt weight hr] at h
      exact hne (Option.some.inj h)
  rw [total, count_add, hfirst]
  simp only [draw_cons_add]

theorem count_draw (hnodup : l.Nodup) (hmem : a ∈ l) :
    count (fun r : Nat => draw (· < 0) weight r l = some a) (total weight l) = weight a := by
  induction l with
  | nil => cases hmem
  | cons b l ih =>
    obtain ⟨hb, hl⟩ := nodup_cons.mp hnodup
    rw [count_draw_cons]
    obtain rfl | hrest := mem_cons.mp hmem
    · have hlater : count (fun r : Nat => draw (· < 0) weight r l = some a)
          (total weight l) = 0 := by
        rw [count_iff_forall_not]
        exact fun r _ h => hb (draw_mem h)
      rw [hlater, if_pos rfl, add_zero]
    · have hne : b ≠ a := by
        rintro rfl
        exact hb hrest
      rw [if_neg hne, zero_add, ih hl hrest]

end Strict

section Weak

variable (weight : α → Nat)

theorem draw_le_add_one (r : Int) (l : List α) :
    draw (· ≤ 0) weight (r + 1) l = draw (· < 0) weight r l := by
  induction l generalizing r with
  | nil => rfl
  | cons a l ih =>
    have hleft : r + 1 - weight a = r - weight a + 1 := by omega
    have htest : (r - weight a + 1 ≤ 0) = (r - weight a < 0) := by
      rw [eq_iff_iff]
      omega
    simp [draw, hleft, ih, htest]

theorem draw_le_succ (r : Nat) (l : List α) :
    draw (· ≤ 0) weight ↑(r + 1) l = draw (· < 0) weight r l := draw_le_add_one weight r l

theorem draw_le_zero (a : α) (l : List α) : draw (· ≤ 0) weight 0 (a :: l) = some a := by
  simp [draw]

variable {l : List α} {a : α}

theorem draw_le_isSome {r : Nat} (hne : l ≠ []) (h : r < total weight l) :
    (draw (· ≤ 0) weight r l).isSome := by
  obtain ⟨a, l, rfl⟩ := exists_cons_of_ne_nil hne
  cases r with
  | zero =>
    have hfirst : draw (· ≤ 0) weight ↑(0 : Nat) (a :: l) = some a := draw_le_zero weight a l
    rw [hfirst]
    rfl
  | succ =>
    rw [draw_le_succ]
    exact draw_isSome weight (by omega)

theorem exists_draw_le (hmem : a ∈ l) (h : 1 < weight a) :
    ∃ r : Nat, r < total weight l ∧ draw (· ≤ 0) weight r l = some a := by
  obtain ⟨r, hr, hdraw⟩ := exists_draw_lt weight hmem h
  refine ⟨r + 1, hr, ?_⟩
  rw [draw_le_succ, hdraw]

theorem draw_last (hne : l ≠ []) {n : Nat} (hlast : 0 < weight (l.getLast hne))
    (hn : total weight l = n + 1) : draw (· < 0) weight n l = some (l.getLast hne) := by
  induction l generalizing n with
  | nil => exact absurd rfl hne
  | cons a l ih =>
    simp only [total] at hn
    cases l with
    | nil =>
      simp only [total] at hn
      exact draw_cons_of_lt weight (by omega)
    | cons b l =>
      have hrest : 0 < total weight (b :: l) := by
        rw [getLast_cons (by simp)] at hlast
        obtain ⟨r, hr, -⟩ := exists_draw_lt weight (getLast_mem (by simp)) hlast
        exact zero_lt_of_lt hr
      obtain ⟨k, rfl⟩ : ∃ k, n = weight a + k := ⟨n - weight a, by omega⟩
      rw [draw_cons_add]
      exact ih (by simp) hlast (by omega)

variable [DecidableEq α]

theorem count_draw_le (hnodup : (a :: l).Nodup) (hpos : ∀ b ∈ a :: l, 0 < weight b) {c : α}
    (hmem : c ∈ a :: l) :
    count (fun r : Nat => draw (· ≤ 0) weight r (a :: l) = some c)
        (total weight (a :: l)) + (if (a :: l).getLast (by simp) = c then 1 else 0) =
      weight c + (if a = c then 1 else 0) := by
  obtain ⟨n, hn⟩ : ∃ n, total weight (a :: l) = n + 1 := by
    have ha := hpos a mem_cons_self
    exact ⟨weight a + total weight l - 1, by simp only [total]; omega⟩
  have hstrict := count_draw weight hnodup hmem
  have hlast := draw_last weight (l := a :: l) (by simp) (hpos _ (getLast_mem _)) hn
  rw [hn, count_succ, hlast] at hstrict
  rw [hn, count_succ']
  have hfirst : draw (· ≤ 0) weight ↑(0 : Nat) (a :: l) = some a := draw_le_zero weight a l
  simp only [draw_le_succ, hfirst, Option.some.injEq] at hstrict ⊢
  omega

theorem forall_count_draw_le_iff (hne : l ≠ []) (hnodup : l.Nodup) (hpos : ∀ b ∈ l, 0 < weight b) :
    (∀ c ∈ l, count (fun r : Nat => draw (· ≤ 0) weight r l = some c) (total weight l) =
        weight c) ↔ l.length = 1 := by
  obtain ⟨a, l, rfl⟩ := exists_cons_of_ne_nil hne
  constructor
  · intro h
    have hcount := count_draw_le weight hnodup hpos mem_cons_self
    rw [h a mem_cons_self, if_pos rfl] at hcount
    have hlast : (a :: l).getLast hne = a := by
      by_contra hother
      rw [if_neg hother] at hcount
      omega
    cases l with
    | nil => rfl
    | cons =>
      -- the last element is a later one, which differs from the first
      refine absurd ?_ (nodup_cons.mp hnodup).1
      rw [← hlast, getLast_cons (by simp)]
      exact getLast_mem _
  · intro hlength c hc
    obtain rfl : l = [] := by simpa using hlength
    have hcount := count_draw_le weight hnodup hpos hc
    obtain rfl : c = a := by simpa using hc
    simpa using hcount

end Weak

end NewApi.Foundation
