import Mathlib.Logic.Function.Basic
import Mathlib.Logic.Relation
import Mathlib.Tactic.Push

/-!
# Locks that are taken in order

A lock has a rank while it is held and one while it is waited for; a thread waits only for locks
above all that it holds.
-/

namespace NewApi.Foundation

open Function Relation

/-- The lock that is released is the last one taken. -/
inductive Action (L A : Type*) where
  | acquire (lock : L)
  | release
  | access (object : A)

structure Thread (L A : Type*) where
  held : List L := []
  rest : List (Action L A)

structure LockOrder (L A : Type*) where
  /-- While the first lock is held, the second is waited for. -/
  Conflicts : L → L → Prop
  held : L → Nat
  wanted : L → Nat
  guard : A → L
  bound : Nat
  wanted_le : ∀ lock, wanted lock ≤ bound
  wanted_le_held : ∀ lock lock', Conflicts lock lock' → wanted lock' ≤ held lock

namespace LockOrder

variable {L A ι : Type*} (o : LockOrder L A)

def locksAfter (locks : List L) : Action L A → List L
  | .acquire lock => lock :: locks
  | .release => locks.tail
  | .access _ => locks

inductive Step [DecidableEq ι] (s : ι → Thread L A) : (ι → Thread L A) → Prop
  | next (t : ι) (action : Action L A) (rest : List (Action L A))
      (hrest : (s t).rest = action :: rest)
      (hfree : ∀ lock, action = .acquire lock → ∀ u, ∀ h ∈ (s u).held, ¬ o.Conflicts h lock) :
      Step s (update s t ⟨locksAfter (s t).held action, rest⟩)

/-- An access is made under its guard, and in the end every lock is released. -/
def Ordered : List L → List (Action L A) → Prop
  | locks, [] => locks = []
  | locks, action :: rest => Ordered (locksAfter locks action) rest ∧
    match action with
    | .acquire lock => ∀ h ∈ locks, o.held h < o.wanted lock
    | .release => locks ≠ []
    | .access object => o.guard object ∈ locks

/-- Two threads share only locks that do not conflict with themselves. -/
structure Inv (s : ι → Thread L A) : Prop where
  ordered : ∀ t, o.Ordered (s t).held (s t).rest
  shared : ∀ t u, t ≠ u → ∀ lock ∈ (s t).held, lock ∈ (s u).held → ¬ o.Conflicts lock lock

variable {o}

theorem Ordered.append {locks : List L} {first second : List (Action L A)}
    (hfirst : o.Ordered locks first) (hsecond : o.Ordered [] second) :
    o.Ordered locks (first ++ second) := by
  induction first generalizing locks with
  | nil => exact hfirst ▸ hsecond
  | cons action first ih => exact ⟨ih hfirst.1, hfirst.2⟩

variable [DecidableEq ι] {s s' : ι → Thread L A}

theorem Inv.step (h : o.Inv s) (hstep : o.Step s s') : o.Inv s' := by
  obtain ⟨t, action, rest, hrest, hfree⟩ := hstep
  have hnew : ∀ u ≠ t, ∀ lock ∈ locksAfter (s t).held action, lock ∈ (s u).held →
      ¬ o.Conflicts lock lock := by
    intro u hu lock hlock hother
    cases action with
    | acquire lock' =>
      rcases List.mem_cons.mp hlock with rfl | hold
      · exact hfree lock rfl u lock hother
      · exact h.shared t u hu.symm lock hold hother
    | release => exact h.shared t u hu.symm lock (List.mem_of_mem_tail hlock) hother
    | access => exact h.shared t u hu.symm lock hlock hother
  constructor
  · intro u
    have hordered := h.ordered u
    rcases eq_or_ne u t with rfl | hu
    · rw [hrest] at hordered
      simpa using hordered.1
    · simpa [hu] using hordered
  · intro u v huv
    have hshared := h.shared u v huv
    grind [update_apply]

theorem Inv.reached (h : o.Inv s) (hsteps : ReflTransGen o.Step s s') : o.Inv s' := by
  induction hsteps with
  | refl => exact h
  | tail _ hstep ih => exact ih.step hstep

theorem Inv.apart (h : o.Inv s) {t u : ι} {a : A} {rest rest' : List (Action L A)}
    (ha : o.Conflicts (o.guard a) (o.guard a)) (ht : (s t).rest = .access a :: rest)
    (hu : (s u).rest = .access a :: rest') : t = u := by
  have hguard := h.ordered t
  have hguard' := h.ordered u
  rw [ht] at hguard
  rw [hu] at hguard'
  by_contra hne
  exact h.shared t u hne _ hguard.2 hguard'.2 ha

/-- Whoever waits waits for a thread that is ahead in the order. -/
theorem Inv.exists_step (h : o.Inv s) {t : ι} (hrest : (s t).rest ≠ []) : ∃ s', o.Step s s' := by
  obtain ⟨action, rest, hnext⟩ := List.exists_cons_of_ne_nil hrest
  cases action with
  | release | access => exact ⟨_, .next t _ rest hnext nofun⟩
  | acquire lock =>
    clear hrest
    induction hn : o.bound - o.wanted lock using Nat.strongRecOn generalizing t lock rest with
    | ind n ih =>
      by_cases hfree : ∀ u, ∀ h ∈ (s u).held, ¬ o.Conflicts h lock
      · exact ⟨_, .next t _ rest hnext fun lock' heq => by cases heq; exact hfree⟩
      push Not at hfree
      obtain ⟨u, mine, hmine, hconflict⟩ := hfree
      have hordered := h.ordered u
      cases hother : (s u).rest with
      | nil =>
        rw [hother] at hordered
        rw [hordered] at hmine
        cases hmine
      | cons action' rest' =>
        rw [hother] at hordered
        cases action' with
        | acquire lock' =>
          have hup := hordered.2 mine hmine
          have hle := o.wanted_le_held mine lock hconflict
          have hle' := o.wanted_le lock'
          exact ih (o.bound - o.wanted lock') (by omega) rest' lock' hother rfl
        | release | access => exact ⟨_, .next u _ rest' hother nofun⟩

end LockOrder

end NewApi.Foundation
