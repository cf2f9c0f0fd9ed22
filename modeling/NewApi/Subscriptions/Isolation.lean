import NewApi.Foundation.Run
import NewApi.Subscriptions.Store

/-!
# Concurrent transactions on one subscription

`PreConsumeUserSubscription` and `PostConsumeUserSubscriptionDelta` read the
row, compute the new `amount_used` and save the whole row.  The row is read
with a `gorm` v1 option that asks for `FOR UPDATE`; `gorm` v2 ignores it, so
other transactions may save between the read and the save.
-/

namespace NewApi.Subscriptions

open Foundation

inductive Consume where
  | pre (amount : Int)
  | post (delta : Int)
  deriving DecidableEq

open Consume

namespace Consume

def amount : Consume → Int
  | .pre amount => amount
  | .post delta => delta

def idle : Consume → Bool
  | .pre amount => decide (amount ≤ 0)
  | .post delta => decide (delta = 0)

def apply (snapshot : UserSubscription) : Consume → Option UserSubscription
  | .pre amount => snapshot.preConsume amount
  | .post delta => snapshot.postConsume delta

def unclamped (snapshot : UserSubscription) : Consume → Bool
  | .pre _ => true
  | .post delta => decide (0 ≤ snapshot.amountUsed + delta)

end Consume

structure OpenTransaction where
  op : Consume
  snapshot : UserSubscription

structure Isolation where
  row : UserSubscription
  transactions : Nat → Option OpenTransaction
  succeeded : List Consume

open Isolation

inductive IsolationEvent where
  | read (tx : Nat) (op : Consume)
  | save (tx : Nat) (ok : Bool)

namespace Isolation

def start (row : UserSubscription) : Isolation :=
  { row := row, transactions := fun _ => none, succeeded := [] }

def written (s : Isolation) : IsolationEvent → Option (OpenTransaction × UserSubscription)
  | .read .. => none
  | .save tx ok =>
    match s.transactions tx with
    | none => none
    | some t => if ok then (t.op.apply t.snapshot).map (t, ·) else none

def step (s : Isolation) (e : IsolationEvent) : Isolation :=
  match e with
  | .read tx op =>
    if op.idle = true ∨ (s.transactions tx).isSome = true then s
    else
      { s with transactions := Function.update s.transactions tx (some ⟨op, s.row⟩) }
  | .save tx _ =>
    let closed := { s with transactions := Function.update s.transactions tx none }
    match s.written e with
    | none => closed
    | some (t, saved) => { closed with row := saved, succeeded := t.op :: s.succeeded }

def Balanced (initial : Int) (s : Isolation) : Prop :=
  s.row.amountUsed = initial + (s.succeeded.map amount).sum

def Unclamped (s : Isolation) (e : IsolationEvent) : Prop :=
  ∀ w ∈ s.written e, w.1.op.unclamped w.1.snapshot = true

/-- A transaction that saves finds the `amount_used` it has read. -/
def Undisturbed (s : Isolation) (e : IsolationEvent) : Prop :=
  ∀ w ∈ s.written e, s.row.amountUsed = w.1.snapshot.amountUsed

instance (s : Isolation) (e : IsolationEvent) : Decidable (s.Unclamped e) := by
  unfold Unclamped
  infer_instance

end Isolation

theorem Consume.apply_spec {op : Consume} {snapshot saved : UserSubscription}
    (h : op.apply snapshot = some saved) :
    (op.unclamped snapshot = true → saved.amountUsed = snapshot.amountUsed + op.amount) ∧
      (0 < saved.amountTotal → saved.amountUsed ≤ saved.amountTotal) := by
  cases op with
  | pre =>
    simp only [apply, UserSubscription.preConsume] at h
    split at h
    · contradiction
    rename_i hfits
    cases h
    refine ⟨fun _ => rfl, ?_⟩
    intro htotal
    simp only at htotal ⊢
    omega
  | post =>
    simp only [apply, UserSubscription.postConsume] at h
    split at h
    · contradiction
    rename_i hfits
    cases h
    constructor
    · intro hclamp
      simp only [unclamped, decide_eq_true_eq] at hclamp
      simp only [UserSubscription.usedAfter, amount]
      rw [if_neg (by omega)]
    · intro htotal
      simp only at htotal ⊢
      omega

namespace Isolation

variable {s : Isolation} {e : IsolationEvent}

theorem written_spec {t : OpenTransaction} {saved : UserSubscription}
    (h : s.written e = some (t, saved)) : t.op.apply t.snapshot = some saved := by
  cases e with
  | read => simp [written] at h
  | save tx =>
    simp only [written] at h
    cases htx : s.transactions tx with
    | none => simp [htx] at h
    | some =>
      simp only [htx] at h
      split at h
      · obtain ⟨saved', hsaved, heq⟩ := Option.map_eq_some_iff.mp h
        cases heq
        exact hsaved
      · contradiction

theorem step_row (s : Isolation) (e : IsolationEvent) :
    (s.written e = none ∧ (step s e).row = s.row ∧ (step s e).succeeded = s.succeeded) ∨
      ∃ t saved, s.written e = some (t, saved) ∧ (step s e).row = saved ∧
        (step s e).succeeded = t.op :: s.succeeded := by
  cases e with
  | read =>
    refine .inl ⟨rfl, ?_⟩
    simp only [step]
    split <;> exact ⟨rfl, rfl⟩
  | save tx ok =>
    simp only [step]
    cases hwritten : s.written (.save tx ok) with
    | none => exact .inl ⟨rfl, rfl, rfl⟩
    | some result => exact .inr ⟨result.1, result.2, rfl, rfl, rfl⟩

theorem balanced_step_iff {initial : Int} (h : Balanced initial s) (hclamp : Unclamped s e) :
    Balanced initial (step s e) ↔ Undisturbed s e := by
  unfold Balanced Undisturbed at *
  rcases step_row s e with ⟨hnone, hrow, hlog⟩ | ⟨t, saved, hsome, hrow, hlog⟩
  · rw [hrow, hlog, hnone]
    exact iff_of_true h (by simp)
  obtain ⟨hused, -⟩ := apply_spec (written_spec hsome)
  have hsaved := hused (hclamp (t, saved) hsome)
  rw [hrow, hlog, hsome, hsaved, List.map_cons, List.sum_cons]
  constructor
  · intro hbalance w hw
    cases hw
    simp only
    omega
  · intro hsame
    have hread := hsame (t, saved) rfl
    simp only at hread
    omega

def Bounded (s : Isolation) : Prop := 0 < s.row.amountTotal → s.row.amountUsed ≤ s.row.amountTotal

theorem bounded_step (s : Isolation) (e : IsolationEvent) (h : Bounded s) : Bounded (step s e) := by
  unfold Bounded at *
  rcases step_row s e with ⟨-, hrow, -⟩ | ⟨t, saved, hsome, hrow, -⟩
  · rw [hrow]
    exact h
  · rw [hrow]
    exact (apply_spec (written_spec hsome)).2

end Isolation

/--
No update is lost, at any point of an interleaving, exactly when every saving
transaction finds the amount it has read; `amount_total` is never exceeded.
-/
theorem consume_ledger_iff (row : UserSubscription) (events : List IsolationEvent)
    (hclamp : Admits step Isolation.Unclamped (.start row) events) :
    ((∀ before after, events = before ++ after →
        Isolation.Balanced row.amountUsed (run step (.start row) before)) ↔
      Admits step Isolation.Undisturbed (.start row) events) ∧
    ((0 < row.amountTotal → row.amountUsed ≤ row.amountTotal) →
      Isolation.Bounded (run step (.start row) events)) := by
  constructor
  · refine forall_prefix_iff_admits (fun s hs => hs)
      (fun s e hs he => (balanced_step_iff hs he).mpr)
      (fun s e hs he => (balanced_step_iff hs he).mp) ?_ hclamp
    simp [Isolation.Balanced, start]
  · intro hbound
    have hstart : Isolation.Bounded (.start row) := hbound
    exact run_invariant bounded_step hstart events

def plainSubscription : UserSubscription :=
  { id := 1, userId := 7, planId := 2, amountTotal := 100, amountUsed := 0
    startTime := 1800000000, endTime := 1900000000, status := .active, source := "order"
    lastResetTime := 0, nextResetTime := 0, upgradeGroup := "", prevUserGroup := "" }

def sequentialRun : List IsolationEvent :=
  [.read 0 (.pre 30), .save 0 true, .read 1 (.post (-10)), .save 1 true]

def overlappingRun : List IsolationEvent :=
  [.read 0 (.pre 30), .read 1 (.pre 20), .save 0 true, .save 1 true]

theorem consume_ledger_iff_sequential :
    (run step (.start plainSubscription) sequentialRun).row.amountUsed = 20 ∧
    ((∀ before after, sequentialRun = before ++ after →
        Isolation.Balanced plainSubscription.amountUsed
          (run step (.start plainSubscription) before)) ↔
      Admits step Isolation.Undisturbed (.start plainSubscription) sequentialRun) ∧
    ((0 < plainSubscription.amountTotal →
        plainSubscription.amountUsed ≤ plainSubscription.amountTotal) →
      Isolation.Bounded (run step (.start plainSubscription) sequentialRun)) := by
  exact ⟨by decide, consume_ledger_iff plainSubscription sequentialRun (by decide)⟩

theorem consumed_amount_lost :
    Admits step Isolation.Unclamped (.start plainSubscription) overlappingRun ∧
    (run step (.start plainSubscription) overlappingRun).succeeded = [.pre 20, .pre 30] ∧
    (run step (.start plainSubscription) overlappingRun).row.amountUsed = 20 := by
  decide

end NewApi.Subscriptions
