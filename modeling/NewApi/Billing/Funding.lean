import NewApi.Billing.Session
import NewApi.Subscriptions.PreConsume

/-!
# What a funding source holds for a session

The net amount taken from a funding source and what each of its operations
does to it.  Both sources keep, besides the balance, what a refund needs: the
wallet the amount consumed, the subscription its record.
-/

namespace NewApi.Billing

open Foundation Subscriptions Accounts Funding

namespace Accounts

def usedOf (a : Accounts) (id : Int) : Int :=
  match a.db.subs.get id with
  | some sub => sub.amountUsed
  | none => 0

def debit (before after : Accounts) : Funding → Int
  | .wallet w => before.users w.userId - after.users w.userId
  | .subscription s => after.usedOf s.subscriptionId - before.usedOf s.subscriptionId

def tokenDebit (before after : Accounts) (id : Int) : Int :=
  (before.tokens id).remainQuota - (after.tokens id).remainQuota

theorem checked_ok {a a' : Accounts} {quota : Int} {fault : Bool}
    {change : Accounts → Accounts} (h : a.checked quota fault change = .ok a') : a' = change a := by
  unfold checked at h
  split at h
  · contradiction
  split at h
  · contradiction
  exact (Except.ok.inj h).symm

theorem checked_succeeds {a : Accounts} {quota : Int} (hquota : 0 ≤ quota)
    (change : Accounts → Accounts) : a.checked quota false change = .ok (change a) := by
  rw [checked, if_neg (by omega)]
  rfl

@[simp] theorem chargeUser_users (a : Accounts) (id amount : Int) :
    (a.chargeUser id amount).users id = a.users id - amount := by
  simp [chargeUser]

@[simp] theorem chargeToken_remain (a : Accounts) (id amount : Int) :
    ((a.chargeToken id amount).tokens id).remainQuota = (a.tokens id).remainQuota - amount := by
  simp [chargeToken]

theorem chargeToken_undo (a : Accounts) (id amount : Int) :
    (a.chargeToken id amount).chargeToken id (-amount) = a := by
  cases a with
  | mk =>
    simp only [chargeToken, Function.update_self, Function.update_idem, mk.injEq,
      true_and, and_true]
    rw [Function.update_eq_self_iff]
    simp

theorem debit_chargeToken (before a : Accounts) (id amount : Int) (f : Funding) :
    before.debit (a.chargeToken id amount) f = before.debit a f := by
  cases f <;> rfl

theorem debit_add (a b c : Accounts) (f : Funding) : a.debit b f + b.debit c f = a.debit c f := by
  cases f <;> simp only [debit] <;> omega

end Accounts

structure SubscriptionHold (before a : Accounts) (s : SubscriptionFunding) (extra : Int)
    (start row : UserSubscription) (record : PreConsumeRecord) : Prop where
  start_row : before.db.subs.get s.subscriptionId = some start
  start_used : 0 ≤ start.amountUsed
  row_now : a.db.subs.get s.subscriptionId = some row
  used : row.amountUsed = start.amountUsed + (s.preConsumed + extra)
  total : 0 < row.amountTotal → row.amountUsed ≤ row.amountTotal
  stored : a.db.records s.requestId = some record
  status : record.status = .consumed
  record_amount : record.preConsumed = s.preConsumed
  record_row : record.userSubscriptionId = s.subscriptionId
  id_pos : 0 < s.subscriptionId
  amount_pos : 0 < s.preConsumed
  request : trimSpace s.requestId ≠ ""

/-- `taken` is what the funding source has given to an open session, `extra` the
part of it that was reserved later. -/
def Funding.Holds (before a : Accounts) (extra taken : Int) : Funding → Prop
  | .wallet w => before.users w.userId - a.users w.userId = taken ∧ w.consumed = taken
  | .subscription s =>
    taken = s.preConsumed + extra ∧ ∃ start row record,
      SubscriptionHold before a s extra start row record

namespace Funding

variable {before a a' : Accounts} {extra taken delta : Int} {f f' : Funding}

theorem Holds.debit (h : f.Holds before a extra taken) : before.debit a f = taken := by
  cases f with
  | wallet => exact h.1
  | subscription =>
    obtain ⟨rfl, start, row, record, hold⟩ := h
    simp only [debit, usedOf, hold.start_row, hold.row_now, hold.used]
    omega

theorem Holds.chargeToken (h : f.Holds before a extra taken) (id amount : Int) :
    f.Holds before (a.chargeToken id amount) extra taken := by
  cases f with
  | wallet => exact h
  | subscription =>
    obtain ⟨htaken, start, row, record, hold⟩ := h
    exact ⟨htaken, start, row, record, { hold with }⟩

variable {s : SubscriptionFunding}

theorem SubscriptionHold.move {start row : UserSubscription} {record : PreConsumeRecord}
    {db : SubscriptionDB} (h : SubscriptionHold before a s extra start row record)
    (hrow : db.subs.get s.subscriptionId = some { row with amountUsed := row.amountUsed + delta })
    (htotal : 0 < row.amountTotal → row.amountUsed + delta ≤ row.amountTotal)
    (hrecords : db.records = a.db.records) :
    SubscriptionHold before { a with db := db } s (extra + delta) start
      { row with amountUsed := row.amountUsed + delta } record where
  start_row := h.start_row
  start_used := h.start_used
  row_now := hrow
  used := by
    have hused := h.used
    simp only
    omega
  total := htotal
  stored := by
    rw [← h.stored]
    exact congrFun hrecords s.requestId
  status := h.status
  record_amount := h.record_amount
  record_row := h.record_row
  id_pos := h.id_pos
  amount_pos := h.amount_pos
  request := h.request

variable {fault : Bool}

theorem accounts_postConsume_ok {id : Int}
    (h : a.postConsumeUserSubscriptionDelta id delta fault = .ok a') :
    ∃ db, postConsumeUserSubscriptionDelta a.db id delta fault = .ok db ∧
      a' = { a with db := db } := by
  unfold Accounts.postConsumeUserSubscriptionDelta at h
  split at h
  · contradiction
  · rename_i db hdb
    exact ⟨db, hdb, (Except.ok.inj h).symm⟩

theorem Holds.reserve (h : f.Holds before a extra taken) (hextra : 0 ≤ extra) (hdelta : 0 < delta)
    (hreserve : f.reserve a delta fault = .ok (f', a')) :
    f'.Holds before a' (extra + delta) (taken + delta) ∧ a'.tokens = a.tokens ∧
      ∀ sub, f' = .subscription sub → f = .subscription sub := by
  cases f with
  | wallet =>
    simp only [reserve] at hreserve
    split at hreserve
    · contradiction
    rename_i paid hpaid
    cases hreserve
    obtain rfl := checked_ok hpaid
    obtain ⟨hdebit, hconsumed⟩ := h
    refine ⟨⟨?_, by simp only [hconsumed]⟩, rfl, by simp⟩
    simp only [chargeUser_users]
    omega
  | subscription =>
    simp only [reserve] at hreserve
    split at hreserve
    · contradiction
    rename_i paid hpaid
    cases hreserve
    obtain ⟨db, hdb, rfl⟩ := accounts_postConsume_ok hpaid
    obtain ⟨rfl, start, row, record, hold⟩ := h
    have hclamp : 0 ≤ row.amountUsed + delta := by
      have hused := hold.used
      have hstart := hold.start_used
      have hpos := hold.amount_pos
      omega
    obtain ⟨hrow, htotal, hrecords⟩ := postConsume_spec hdelta.ne' hdb hold.row_now hclamp
    exact ⟨⟨by omega, start, _, record, SubscriptionHold.move hold hrow htotal hrecords⟩,
      rfl, fun _ h => h⟩

theorem Holds.rollback (h : f.Holds before a (extra + delta) (taken + delta))
    (hextra : 0 ≤ extra) (hdelta : 0 < delta) :
    (f.rollback a delta false).1.Holds before (f.rollback a delta false).2 extra taken ∧
      (f.rollback a delta false).2.tokens = a.tokens ∧
      ∀ sub, (f.rollback a delta false).1 = .subscription sub → f = .subscription sub := by
  cases f with
  | wallet =>
    obtain ⟨hdebit, hconsumed⟩ := h
    simp only [rollback, increaseUserQuota, checked_succeeds hdelta.le]
    refine ⟨⟨?_, ?_⟩, rfl, by simp⟩
    · simp only [chargeUser_users]
      omega
    · simp only
      omega
  | subscription =>
    obtain ⟨htaken, start, row, record, hold⟩ := h
    have hused := hold.used
    have hstart := hold.start_used
    have hpos := hold.amount_pos
    obtain ⟨db, hdb⟩ := postConsume_back hold.row_now hold.id_pos hdelta (by omega) hold.total
    obtain ⟨hrow, htotal, hrecords⟩ := postConsume_spec (by omega) hdb hold.row_now (by omega)
    have hmoved := SubscriptionHold.move hold hrow htotal hrecords
    rw [show extra + delta + -delta = extra by omega] at hmoved
    simp only [rollback, Accounts.postConsumeUserSubscriptionDelta, hdb, compensate]
    exact ⟨⟨by omega, start, _, record, hmoved⟩, trivial, fun _ h => h⟩

/-- Settling by `delta` does not cut `amount_used` off at 0. -/
def Unclamped (a : Accounts) (delta : Int) : Funding → Prop
  | .wallet _ => True
  | .subscription s => ∀ row ∈ a.db.subs.get s.subscriptionId, 0 ≤ row.amountUsed + delta

instance (a : Accounts) (delta : Int) (f : Funding) : Decidable (f.Unclamped a delta) := by
  cases f <;> unfold Unclamped <;> infer_instance

/-- What the cut of `amount_used` at 0 keeps back of a settlement by `delta`. -/
def cutOff (a : Accounts) (delta : Int) : Funding → Int
  | .wallet _ => 0
  | .subscription s =>
    if delta = 0 then 0 else max 0 (-(a.usedOf s.subscriptionId + delta))

private theorem postConsume_debit (hdelta : delta ≠ 0)
    (h : a.postConsumeUserSubscriptionDelta s.subscriptionId delta fault = .ok a') :
    a.debit a' (.subscription s) = delta + cutOff a delta (.subscription s) ∧
      a'.tokens = a.tokens := by
  obtain ⟨db, hdb, rfl⟩ := accounts_postConsume_ok h
  obtain ⟨row, hrow, hsaved, -, -⟩ := postConsume_saved hdelta hdb
  refine ⟨?_, rfl⟩
  simp only [debit, cutOff, if_neg hdelta, usedOf, hrow, hsaved, UserSubscription.usedAfter]
  split <;> omega

private theorem settle_moves (h : f.settle a delta fault = .ok a') :
    a.debit a' f = delta + f.cutOff a delta ∧ a'.tokens = a.tokens := by
  by_cases hdelta : delta = 0
  · subst hdelta
    cases f with
    | wallet | subscription =>
      cases h
      simp [debit, cutOff]
  cases f with
  | wallet =>
    simp only [settle, if_neg hdelta] at h
    split at h
    all_goals
      obtain rfl := checked_ok h
      refine ⟨?_, rfl⟩
      simp only [debit, cutOff, chargeUser_users]
      omega
  | subscription =>
    simp only [settle, if_neg hdelta] at h
    exact postConsume_debit hdelta h

theorem Unclamped.cutOff_eq_zero (hclamp : f.Unclamped a delta)
    (h : f.settle a delta fault = .ok a') : f.cutOff a delta = 0 := by
  cases f with
  | wallet => rfl
  | subscription =>
    by_cases hdelta : delta = 0
    · exact if_pos hdelta
    rw [settle, if_neg hdelta] at h
    obtain ⟨db, hdb, rfl⟩ := accounts_postConsume_ok h
    obtain ⟨row, hrow, -, -, -⟩ := postConsume_saved hdelta hdb
    have hused := hclamp row hrow
    simp only [cutOff, if_neg hdelta, usedOf, hrow]
    omega

theorem settle_debit (hclamp : f.Unclamped a delta) (h : f.settle a delta fault = .ok a') :
    a.debit a' f = delta ∧ a'.tokens = a.tokens := by
  have hmoved := settle_moves h
  rwa [hclamp.cutOff_eq_zero h, add_zero] at hmoved

end Funding

/-- The refund succeeds: no write fails that is not tried again, and no attempt
loses the mark of its record. -/
def RefundCallFaults.Compensates (faults : RefundCallFaults) : Prop :=
  faults.wallet = false ∧ faults.extra = false ∧ faults.token = false ∧
    (∀ attempt ∈ [faults.first, faults.second, faults.third], attempt.saveRecord = false) ∧
    ∃ attempt ∈ [faults.first, faults.second, faults.third],
      attempt.findRecord = false ∧ attempt.postConsume = false

instance (faults : RefundCallFaults) : Decidable faults.Compensates := by
  unfold RefundCallFaults.Compensates
  infer_instance

theorem SubscriptionHold.consumed {before a : Accounts} {s : SubscriptionFunding} {extra : Int}
    {start row : UserSubscription} {record : PreConsumeRecord}
    (h : SubscriptionHold before a s extra start row record) (hextra : 0 ≤ extra) :
    Consumed a.db s.requestId record row where
  request := h.request
  stored := h.stored
  status := h.status
  amount := by
    rw [h.record_amount]
    exact h.amount_pos
  positive := by
    rw [h.record_row]
    exact h.id_pos
  row := by
    rw [h.record_row]
    exact h.row_now
  used := by
    have hused := h.used
    have hstart := h.start_used
    rw [h.record_amount]
    omega
  total := h.total

namespace BillingSession

theorem refundFunding_debit {s : BillingSession} {before a : Accounts} {taken : Int}
    {faults : RefundCallFaults} (h : s.funding.Holds before a s.extraReserved taken)
    (hextra : 0 ≤ s.extraReserved) (htaken : 0 ≤ taken)
    (hid : ∀ sub, s.funding = .subscription sub → s.relayInfo.subscriptionId = sub.subscriptionId)
    (hfaults : faults.Compensates) :
    before.debit (s.refundFunding a faults) s.funding = 0 ∧
      (s.refundFunding a faults).tokens = a.tokens := by
  obtain ⟨hwallet, hextraFault, -, hsave, hattempt⟩ := hfaults
  cases hf : s.funding with
  | wallet =>
    rw [hf] at h
    obtain ⟨hdebit, hconsumed⟩ := h
    simp only [refundFunding, hf, Funding.source, Funding.refund, reduceCtorEq, false_and,
      and_false, if_false]
    split
    · refine ⟨?_, rfl⟩
      simp only [debit]
      omega
    · rw [hwallet, increaseUserQuota, checked_succeeds (by omega)]
      refine ⟨?_, rfl⟩
      simp only [compensate, debit, chargeUser_users]
      omega
  | subscription sub =>
    rw [hf] at h
    obtain ⟨-, start, row, record, hold⟩ := h
    have hconsumed := hold.consumed hextra
    have hretry := hconsumed.refundWithRetry hsave hattempt
    have hused := hold.used
    have hstart := hold.start_used
    have hpos := hold.amount_pos
    have htotal := hold.total
    -- the row between the refund of the record and that of the extra reservation
    have hrow : ((a.db.lowered record row).markRefunded sub.requestId record).subs.get
        sub.subscriptionId = some { row with amountUsed := row.amountUsed - sub.preConsumed } := by
      have hlowered := hconsumed.lowered_row
      rw [UserSubscription.usedAfter_refund hconsumed.used, hold.record_row,
        hold.record_amount] at hlowered
      exact hlowered
    simp only [refundFunding, hf, Funding.source, Funding.refund,
      if_neg (not_le.mpr hpos), hretry, hid sub hf, hold.id_pos, and_true]
    split
    · rename_i hreserved
      obtain ⟨db, hdb⟩ := postConsume_back hrow hold.id_pos hreserved
        (by simp only; omega) (by simp only; omega)
      obtain ⟨hlast, -, -⟩ := postConsume_spec (by omega) hdb hrow (by simp only; omega)
      simp only [hextraFault, Accounts.postConsumeUserSubscriptionDelta, hdb,
        compensate, debit, usedOf, hold.start_row, hlast, and_true]
      omega
    · simp only [debit, usedOf, hold.start_row, hrow, and_true]
      omega

end BillingSession

end NewApi.Billing
