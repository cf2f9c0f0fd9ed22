import NewApi.Billing.Opening

/-!
# The ledger of a session

Runs of `Reserve`, `Settle` and `Refund` on one session, with every quota
operation of the model layer free to fail.  The net amount taken from the
funding source and from the token is followed through each call.
-/

namespace NewApi.Billing

open Foundation Subscriptions BillingSession Accounts

/-! ## What the calls can do -/

namespace BillingSession

theorem reserve_cases (env : Env) (s : BillingSession) (a : Accounts) (targetQuota : Int)
    (faults : ReserveFaults) :
    (∃ err, s.reserve env a targetQuota faults = (s, a, err)) ∨
      ∃ delta funding paid, 0 < delta ∧
        s.funding.reserve a delta faults.funding = .ok (funding, paid) ∧
        ((∃ message, s.reserve env a targetQuota faults =
            ({ s with funding := (funding.rollback paid delta faults.rollback).1 },
              (funding.rollback paid delta faults.rollback).2, some message)) ∨
          s.reserve env a targetQuota faults =
            (syncRelayInfo
              { s with
                funding := funding
                preConsumedQuota := s.preConsumedQuota + delta
                tokenConsumed := s.tokenConsumed + delta
                extraReserved := s.extraReserved + delta },
              chargedToken s.relayInfo paid delta, none)) := by
  unfold reserve
  split
  · exact .inl ⟨none, rfl⟩
  rename_i hguard
  have hdelta : 0 < targetQuota - s.preConsumedQuota := by
    have hlt := (not_or.mp hguard).2
    omega
  simp only
  split
  · exact .inl ⟨_, rfl⟩
  rename_i funding paid hreserve
  refine .inr ⟨_, funding, paid, hdelta, hreserve, ?_⟩
  split
  · rename_i message _
    exact .inl ⟨message, rfl⟩
  rename_i charged htoken
  refine .inr ?_
  suffices hcharged : charged = chargedToken s.relayInfo paid
      (targetQuota - s.preConsumedQuota) by rw [hcharged]
  unfold reserveToken at htoken
  split at htoken
  · rename_i hplay
    cases htoken
    rw [chargedToken, if_neg]
    rintro ⟨-, hnot⟩
    rcases hplay with hle | hplay
    · omega
    · simp [hnot] at hplay
  · exact preConsumeTokenQuota_ok hdelta htoken

private theorem reserve_refunded (env : Env) (s : BillingSession) (a : Accounts) (targetQuota : Int)
    (faults : ReserveFaults) : (s.reserve env a targetQuota faults).1.refunded = s.refunded := by
  rcases reserve_cases env s a targetQuota faults with
    ⟨err, h⟩ | ⟨delta, funding, paid, -, -, ⟨message, h⟩ | h⟩ <;> simp [h]

variable (s : BillingSession) (delta : Int)

@[simp] theorem addPostDelta_fields :
    (s.addPostDelta delta).funding = s.funding ∧ (s.addPostDelta delta).refunded = s.refunded ∧
      (s.addPostDelta delta).relayInfo.isPlayground = s.relayInfo.isPlayground ∧
      (s.addPostDelta delta).relayInfo.tokenId = s.relayInfo.tokenId := by
  unfold addPostDelta
  split <;> exact ⟨rfl, rfl, rfl, rfl⟩

private theorem settle_refunded (a : Accounts) (actualQuota : Int) (faults : SettleFaults) :
    (s.settle a actualQuota faults).1.refunded = s.refunded := by
  simp only [settle]
  split
  · rfl
  split
  · rfl
  split
  · rfl
  split <;> simp

variable {s : BillingSession} {a a' : Accounts}

theorem adjustToken_ok {delta : Int} {fault : Bool} (h : s.adjustToken a delta fault = .ok a') :
    a' = if s.relayInfo.isPlayground = true then a
      else a.chargeToken s.relayInfo.tokenId delta := by
  unfold adjustToken at h
  split at h
  · rename_i hplay
    rw [if_pos hplay]
    exact (Except.ok.inj h).symm
  rename_i hplay
  rw [if_neg hplay]
  split at h
  · exact checked_ok h
  have hcharged := checked_ok h
  rw [neg_neg] at hcharged
  exact hcharged

private theorem returnToken_spec (before a : Accounts) :
    before.debit (s.returnToken a false) s.funding = before.debit a s.funding ∧
      (s.relayInfo.isPlayground = false →
        before.tokenDebit (s.returnToken a false) s.relayInfo.tokenId =
          before.tokenDebit a s.relayInfo.tokenId - max 0 s.tokenConsumed) := by
  unfold returnToken
  split
  · rename_i hreturn
    rw [increaseTokenQuota, checked_succeeds hreturn.1.le]
    simp only [compensate, debit_chargeToken, true_and]
    intro _
    simp only [tokenDebit, chargeToken_remain]
    omega
  · rename_i hnone
    refine ⟨rfl, fun hplay => ?_⟩
    have hle : s.tokenConsumed ≤ 0 := by
      by_contra hlt
      exact hnone ⟨by omega, hplay⟩
    omega

def paidBy (s : BillingSession) (delta : Int) : BillingSession :=
  { addPostDelta { s with fundingSettled := true } delta with settled := true }

theorem settle_cases {actualQuota : Int} (a : Accounts) (faults : SettleFaults)
    (hfunding : s.fundingSettled = false) (hsettled : s.settled = false)
    (hdelta : actualQuota ≠ s.preConsumedQuota) :
    (∃ message, s.funding.settle a (actualQuota - s.preConsumedQuota) faults.funding =
        .error message ∧ s.settle a actualQuota faults = (s, a, some message)) ∨
      ∃ paid, s.funding.settle a (actualQuota - s.preConsumedQuota) faults.funding = .ok paid ∧
        ((∃ message, s.settle a actualQuota faults =
            (s.paidBy (actualQuota - s.preConsumedQuota), paid, some message)) ∨
          s.settle a actualQuota faults =
            (s.paidBy (actualQuota - s.preConsumedQuota),
              if s.relayInfo.isPlayground = true then paid
              else paid.chargeToken s.relayInfo.tokenId (actualQuota - s.preConsumedQuota),
              none)) := by
  have hne : actualQuota - s.preConsumedQuota ≠ 0 := by omega
  have hopen : ¬ s.settled = true := by simp [hsettled]
  have hunpaid : ¬ s.fundingSettled = true := by simp [hfunding]
  simp only [settle, if_neg hopen, if_neg hne, if_neg hunpaid]
  split
  · rename_i message hmessage
    exact .inl ⟨message, hmessage, rfl⟩
  rename_i paid hpaid
  refine .inr ⟨paid, hpaid, ?_⟩
  split
  · rename_i message _
    exact .inl ⟨message, rfl⟩
  · rename_i adjusted htoken
    refine .inr ?_
    rw [adjustToken_ok htoken]
    rfl

end BillingSession

/-- A session with the accounts, and what has happened: the argument of the
settlement that took effect, whether its token adjustment failed, and whether a
settlement and a refund have moved money. -/
structure Ledger where
  accounts : Accounts
  session : BillingSession
  settledAt : Option Int
  tokenFailed : Bool
  settleMoved : Bool
  refundMoved : Bool

open Ledger

inductive Call where
  | reserve (targetQuota : Int) (faults : ReserveFaults)
  | settle (actualQuota : Int) (faults : SettleFaults)
  | refund (faults : RefundCallFaults)

namespace Ledger

def start (a : Accounts) (s : BillingSession) : Ledger where
  accounts := a
  session := s
  settledAt := none
  tokenFailed := false
  settleMoved := false
  refundMoved := false

def moved (l : Ledger) (after : Accounts) : Bool :=
  decide (l.accounts.debit after l.session.funding ≠ 0 ∨
    l.accounts.tokenDebit after l.session.relayInfo.tokenId ≠ 0)

def step (env : Env) (l : Ledger) (c : Call) : Ledger :=
  match c with
  | .reserve targetQuota faults =>
    let (session, accounts, _) := l.session.reserve env l.accounts targetQuota faults
    { l with session := session, accounts := accounts }
  | .settle actualQuota faults =>
    let (session, accounts, err) := l.session.settle l.accounts actualQuota faults
    let effective := !l.session.settled && session.settled
    { l with
      session := session
      accounts := accounts
      settledAt := if effective then some actualQuota else l.settledAt
      tokenFailed := if effective then err.isSome else l.tokenFailed
      settleMoved := l.settleMoved || l.moved accounts }
  | .refund faults =>
    let (session, accounts) := l.session.refund l.accounts faults
    { l with
      session := session
      accounts := accounts
      refundMoved := l.refundMoved || l.moved accounts }

/-- Compensating operations succeed, and a settlement is not cut off at 0. -/
def CallSound (l : Ledger) : Call → Prop
  | .reserve _ faults => faults.rollback = false
  | .settle actualQuota _ =>
    l.session.settled = false →
      l.session.funding.Unclamped l.accounts (actualQuota - l.session.preConsumedQuota)
  | .refund faults => faults.Compensates

def NoLateSettle (l : Ledger) : Call → Prop
  | .settle .. => l.session.refunded = false
  | _ => True

/-- A settlement after a refund does not reach the funding source. -/
def LateSettleIdle (l : Ledger) : Call → Prop
  | .settle actualQuota faults =>
    l.session.refunded = true → l.session.settled = true ∨
      actualQuota = l.session.preConsumedQuota ∨
      ∃ message, l.session.funding.settle l.accounts
        (actualQuota - l.session.preConsumedQuota) faults.funding = .error message
  | _ => True

instance (l : Ledger) (c : Call) : Decidable (l.CallSound c) := by
  cases c <;> unfold CallSound <;> infer_instance

instance (l : Ledger) (c : Call) : Decidable (l.NoLateSettle c) := by
  cases c <;> unfold NoLateSettle <;> infer_instance

def net (before : Accounts) (l : Ledger) : Int := before.debit l.accounts l.session.funding

def tokenNet (before : Accounts) (l : Ledger) : Int :=
  before.tokenDebit l.accounts l.session.relayInfo.tokenId

structure Law (before : Accounts) (l : Ledger) : Prop where
  pending : l.settledAt = none → l.session.refunded = false →
    l.net before = l.session.preConsumedQuota
  settled : ∀ actualQuota ∈ l.settledAt, l.net before = actualQuota
  refunded : l.session.refunded = true → l.net before = 0
  token : l.session.relayInfo.isPlayground = false → l.tokenFailed = false →
    l.tokenNet before = l.net before

/-! ## The three phases -/

structure Pending (before : Accounts) (l : Ledger) : Prop where
  fundingSettled : l.session.fundingSettled = false
  settled : l.session.settled = false
  refunded : l.session.refunded = false
  settledAt : l.settledAt = none
  settleMoved : l.settleMoved = false
  refundMoved : l.refundMoved = false
  quota : 0 ≤ l.session.preConsumedQuota
  extra : 0 ≤ l.session.extraReserved
  consumed : l.session.tokenConsumed = l.session.preConsumedQuota
  holds : l.session.funding.Holds before l.accounts l.session.extraReserved
    l.session.preConsumedQuota
  token : l.session.relayInfo.isPlayground = false → l.tokenNet before = l.session.preConsumedQuota
  synced : ∀ sub, l.session.funding = .subscription sub →
    l.session.relayInfo.subscriptionId = sub.subscriptionId

structure Settled (before : Accounts) (l : Ledger) : Prop where
  settled : l.session.settled = true
  refunded : l.session.refunded = false
  refundMoved : l.refundMoved = false
  net : ∃ actualQuota, l.settledAt = some actualQuota ∧ l.net before = actualQuota
  token : l.session.relayInfo.isPlayground = false → l.tokenFailed = false →
    l.tokenNet before = l.net before

structure Refunded (before : Accounts) (l : Ledger) : Prop where
  fundingSettled : l.session.fundingSettled = false
  refunded : l.session.refunded = true
  settleMoved : l.settleMoved = false
  refundMoved : l.refundMoved = true
  net : l.net before = 0
  token : l.session.relayInfo.isPlayground = false → l.tokenNet before = 0

inductive Phase (before : Accounts) (l : Ledger) : Prop
  | pending (h : Pending before l)
  | settled (h : Settled before l)
  | refunded (h : Refunded before l)

theorem pending_start {before after : Accounts} {s : BillingSession}
    (h : Opened before after s) (hquota : 0 ≤ s.preConsumedQuota) :
    Pending before (start after s) where
  fundingSettled := h.fundingSettled
  settled := h.settled
  refunded := h.refunded
  settledAt := rfl
  settleMoved := rfl
  refundMoved := rfl
  quota := hquota
  extra := h.extra.ge
  consumed := by
    have hconsumed := h.consumed
    simp only [start]
    omega
  holds := by
    have hholds := h.holds
    rw [max_eq_right hquota] at hholds
    simpa [start, h.extra] using hholds
  token := by
    intro hplay
    have htoken := h.token hplay
    rw [max_eq_right hquota] at htoken
    exact htoken
  synced := h.synced

/-! ## Calls that do nothing -/

section Idle

variable {env : Env} {before : Accounts} {l : Ledger}

theorem moved_self (l : Ledger) : l.moved l.accounts = false := by
  unfold moved
  cases l.session.funding <;> simp [debit, tokenDebit]

theorem moved_of_debit {after : Accounts} (h : l.accounts.debit after l.session.funding ≠ 0) :
    l.moved after = true := decide_eq_true (.inl h)

theorem reserve_idle (h : (l.session.settled || l.session.refunded) = true) (targetQuota : Int)
    (faults : ReserveFaults) : l.step env (.reserve targetQuota faults) = l := by
  simp only [step, reserve]
  rw [if_pos (.inl (by simp [h]))]

theorem settle_idle (h : l.session.settled = true) (actualQuota : Int)
    (faults : SettleFaults) : l.step env (.settle actualQuota faults) = l := by
  simp [step, settle, h, moved_self]

theorem settle_exact {actualQuota : Int} (hsettled : l.session.settled = false)
    (hquota : actualQuota = l.session.preConsumedQuota) (faults : SettleFaults) :
    l.step env (.settle actualQuota faults) =
      { l with
        session := { l.session with settled := true }
        settledAt := some actualQuota
        tokenFailed := false } := by
  simp [step, settle, hsettled, hquota, moved_self]

theorem settle_refused {actualQuota : Int} {faults : SettleFaults}
    {err : Option String} (hsettled : l.session.settled = false)
    (h : l.session.settle l.accounts actualQuota faults = (l.session, l.accounts, err)) :
    l.step env (.settle actualQuota faults) = l := by
  simp [step, h, hsettled, moved_self]

theorem refund_none {faults : RefundCallFaults}
    (h : (l.session.settled || l.session.refunded || !l.session.needsRefundLocked) = true) :
    l.step env (.refund faults) = l := by
  simp only [step, refund, if_pos h, moved_self, Bool.or_false]

theorem refund_idle (h : (l.session.settled || l.session.refunded) = true)
    (faults : RefundCallFaults) : l.step env (.refund faults) = l := refund_none (by simp [h])

theorem Settled.step (h : Settled before l) (c : Call) : l.step env c = l := by
  cases c with
  | reserve => exact reserve_idle (by simp [h.settled]) _ _
  | settle => exact settle_idle h.settled _ _
  | refund => exact refund_idle (by simp [h.settled]) _

end Idle

/-! ## Calls on a pending session -/

section Pending

variable {env : Env} {before : Accounts} {l : Ledger}

theorem Pending.reserve (h : Pending before l) {targetQuota : Int}
    {faults : ReserveFaults} (hrollback : faults.rollback = false) :
    Pending before (l.step env (.reserve targetQuota faults)) := by
  simp only [step]
  rcases reserve_cases env l.session l.accounts targetQuota faults with
    ⟨err, hidle⟩ | ⟨delta, funding, paid, hdelta, hreserve, ⟨message, hback⟩ | hdone⟩
  · rw [hidle]
    exact { h with }
  · obtain ⟨hholds, htokens, hsame⟩ := h.holds.reserve h.extra hdelta hreserve
    obtain ⟨hrestored, htokens', hsame'⟩ := hholds.rollback h.extra hdelta
    rw [hback, hrollback]
    exact
      { h with
        holds := hrestored
        token := by
          intro hplay
          rw [← h.token hplay]
          simp [tokenNet, tokenDebit, htokens', htokens]
        synced := fun sub hsub => h.synced sub (hsame sub (hsame' sub hsub)) }
  · obtain ⟨hholds, htokens, hsame⟩ := h.holds.reserve h.extra hdelta hreserve
    have hquota := h.quota
    have hextra := h.extra
    rw [hdone]
    refine
      { fundingSettled := by simpa using h.fundingSettled
        settled := by simpa using h.settled
        refunded := by simpa using h.refunded
        settledAt := h.settledAt
        settleMoved := h.settleMoved
        refundMoved := h.refundMoved
        quota := ?_
        extra := ?_
        consumed := ?_
        holds := ?_
        token := ?_
        synced := ?_ }
    · simp only [sync_fields]
      omega
    · simp only [sync_fields]
      omega
    · simp [h.consumed]
    · simp only [sync_funding, sync_fields]
      exact holds_chargedToken hholds _ _
    · simp only [sync_fields]
      intro hplay
      have hcharged := tokenDebit_chargedToken before paid delta hplay
      have htoken := h.token hplay
      simp only [tokenNet, sync_fields, tokenDebit, htokens] at *
      omega
    · intro sub hsub
      rw [sync_funding] at hsub
      exact sync_subscriptionId _ hsub

theorem Pending.settle (h : Pending before l) {actualQuota : Int}
    {faults : SettleFaults} (hclamp : CallSound l (.settle actualQuota faults)) :
    Phase before (l.step env (.settle actualQuota faults)) := by
  have hnet := h.holds.debit
  by_cases hdelta : actualQuota = l.session.preConsumedQuota
  · -- nothing to adjust
    rw [settle_exact h.settled hdelta]
    refine .settled ⟨rfl, h.refunded, h.refundMoved, ⟨actualQuota, rfl, ?_⟩, ?_⟩
    · exact hnet.trans hdelta.symm
    · intro hplay _
      exact (h.token hplay).trans hnet.symm
  rcases settle_cases l.accounts faults h.fundingSettled h.settled hdelta with
    ⟨message, -, hidle⟩ | ⟨paid, hpaid, hresult⟩
  · rw [settle_refused h.settled hidle]
    exact .pending h
  obtain ⟨hdebit, htokens⟩ := Funding.settle_debit (hclamp h.settled) hpaid
  have hsum := debit_add before l.accounts paid l.session.funding
  have hnet' : before.debit paid l.session.funding = actualQuota := by omega
  refine .settled ?_
  rcases hresult with ⟨message, hres⟩ | hres
  all_goals
    simp only [step, hres]
    refine ⟨rfl, by simp [paidBy, h.refunded], h.refundMoved,
      ⟨actualQuota, by simp [paidBy, h.settled], ?_⟩, ?_⟩
  · -- the funding source is settled, the token is not
    simpa [net, paidBy] using hnet'
  · simp [paidBy, h.settled]
  · simp only [net, paidBy, addPostDelta_fields]
    split
    · exact hnet'
    · rw [debit_chargeToken]
      exact hnet'
  · simp only [paidBy, addPostDelta_fields, net, tokenNet]
    intro hplay _
    have htoken := h.token hplay
    rw [hplay, if_neg (by simp), debit_chargeToken, hnet']
    simp only [tokenNet, tokenDebit, chargeToken_remain, htokens] at htoken ⊢
    omega

private theorem needsRefund_of_effective {s : BillingSession}
    (h : ¬ (s.settled || s.refunded || !s.needsRefundLocked) = true) :
    0 < s.tokenConsumed ∨ ∃ sub, s.funding = .subscription sub ∧ 0 < sub.preConsumed := by
  simp only [Bool.or_eq_true, not_or, Bool.not_eq_true', Bool.not_eq_false] at h
  obtain ⟨-, hneeds⟩ := h
  unfold needsRefundLocked at hneeds
  split at hneeds
  · contradiction
  split at hneeds
  · rename_i hpos
    exact .inl hpos
  · cases hf : s.funding with
    | wallet => simp [hf] at hneeds
    | subscription sub =>
      refine .inr ⟨sub, rfl, ?_⟩
      simpa [hf] using hneeds

theorem Pending.refund (h : Pending before l) {faults : RefundCallFaults}
    (hfaults : faults.Compensates) : Phase before (l.step env (.refund faults)) := by
  by_cases heffective :
      (l.session.settled || l.session.refunded || !l.session.needsRefundLocked) = true
  · rw [refund_none heffective]
    exact .pending h
  obtain ⟨hdebit, htokens⟩ := BillingSession.refundFunding_debit h.holds h.extra h.quota
    h.synced hfaults
  -- an effective refund has something to give back
  have hpos : 0 < l.session.preConsumedQuota := by
    rcases needsRefund_of_effective heffective with htoken | ⟨sub, hsub, hpre⟩
    · rw [h.consumed] at htoken
      exact htoken
    · have hholds := h.holds
      rw [hsub] at hholds
      have hextra := h.extra
      have htaken := hholds.1
      omega
  obtain ⟨hfunding, htoken⟩ := BillingSession.returnToken_spec (s := l.session) before
    (l.session.refundFunding l.accounts faults)
  have hgone : before.debit (l.session.returnToken
      (l.session.refundFunding l.accounts faults) false) l.session.funding = 0 := by
    rw [hfunding, hdebit]
  have hmoved : l.moved (l.session.returnToken
      (l.session.refundFunding l.accounts faults) false) = true := by
    have hsum := debit_add before l.accounts (l.session.returnToken
      (l.session.refundFunding l.accounts faults) false) l.session.funding
    have hheld := h.holds.debit
    exact moved_of_debit (by omega)
  refine .refunded ?_
  simp only [step, BillingSession.refund, if_neg heffective, hfaults.2.2.1]
  refine ⟨h.fundingSettled, rfl, h.settleMoved, ?_, hgone, ?_⟩
  · simp [hmoved]
  · intro hplay
    have hheld := h.token hplay
    have hreturned := htoken hplay
    rw [h.consumed] at hreturned
    simp only [tokenNet, tokenDebit, htokens] at hheld hreturned ⊢
    omega

end Pending

/-! ## Calls on a refunded session -/

section Refunded

variable {env : Env} {before : Accounts} {l : Ledger} {actualQuota : Int} {faults : SettleFaults}

theorem Refunded.settle (h : Refunded before l)
    (hidle : LateSettleIdle l (.settle actualQuota faults)) :
    Refunded before (l.step env (.settle actualQuota faults)) := by
  cases hsettled : l.session.settled with
  | true =>
    rw [settle_idle hsettled]
    exact h
  | false =>
    by_cases hdelta : actualQuota = l.session.preConsumedQuota
    · rw [settle_exact hsettled hdelta]
      exact { h with }
    rcases settle_cases l.accounts faults h.fundingSettled hsettled hdelta with
      ⟨message, -, hrefused⟩ | ⟨paid, hpaid, -⟩
    · rw [settle_refused hsettled hrefused]
      exact h
    · rcases hidle h.refunded with hdone | hsame | ⟨message, hmessage⟩
      · simp [hsettled] at hdone
      · exact absurd hsame hdelta
      · simp [hpaid] at hmessage

theorem Refunded.lateSettleIdle (env : Env) (h : Refunded before l)
    (hclamp : CallSound l (.settle actualQuota faults))
    (honce : (l.step env (.settle actualQuota faults)).settleMoved = false) :
    LateSettleIdle l (.settle actualQuota faults) := by
  intro _
  cases hsettled : l.session.settled with
  | true => exact .inl rfl
  | false =>
    by_cases hdelta : actualQuota = l.session.preConsumedQuota
    · exact .inr (.inl hdelta)
    rcases settle_cases l.accounts faults h.fundingSettled hsettled hdelta with
      ⟨message, hmessage, -⟩ | ⟨paid, hpaid, hresult⟩
    · exact .inr (.inr ⟨message, hmessage⟩)
    obtain ⟨hdebit, -⟩ := Funding.settle_debit (hclamp hsettled) hpaid
    have hmoved : l.moved paid = true := moved_of_debit (by omega)
    have hmoved' : ∀ id amount, l.moved (paid.chargeToken id amount) = true := by
      intro id amount
      refine moved_of_debit ?_
      rw [debit_chargeToken]
      omega
    rcases hresult with ⟨message, hfailed⟩ | hdone
    · simp [step, hfailed, hmoved] at honce
    simp only [step, hdone, Bool.or_eq_false_iff] at honce
    obtain ⟨-, hstill⟩ := honce
    split at hstill
    · simp [hmoved] at hstill
    · simp [hmoved'] at hstill

end Refunded

section Run

variable {env : Env} {before : Accounts} {l : Ledger} {c : Call}

theorem Phase.step (h : Phase before l) (hsound : CallSound l c) (hidle : LateSettleIdle l c) :
    Phase before (l.step env c) := by
  cases h with
  | pending h =>
    cases c with
    | reserve => exact .pending (h.reserve hsound)
    | settle => exact h.settle hsound
    | refund => exact h.refund hsound
  | settled h =>
    rw [h.step]
    exact .settled h
  | refunded h =>
    cases c with
    | reserve =>
      rw [reserve_idle (by simp [h.refunded])]
      exact .refunded h
    | settle => exact .refunded (h.settle hidle)
    | refund =>
      rw [refund_idle (by simp [h.refunded])]
      exact .refunded h

/-- The flags of the session record what has moved, whatever has failed. -/
structure Guarded (l : Ledger) : Prop where
  paid : l.session.fundingSettled = true → l.session.settled = true
  settled : l.settleMoved = true → l.session.settled = true
  refunded : l.refundMoved = true → l.session.refunded = true
  once : ¬ (l.settleMoved = true ∧ l.refundMoved = true)

private theorem guarded_start {after : Accounts} {s : BillingSession} (h : s.Unused) :
    Guarded (start after s) where
  paid := by simp [start, h.fundingSettled]
  settled := by simp [start]
  refunded := by simp [start]
  once := by simp [start]

section

variable (h : Guarded l)
include h

theorem Guarded.reserve (targetQuota : Int) (faults : ReserveFaults) :
    Guarded (l.step env (.reserve targetQuota faults)) := by
  simp only [step]
  rcases reserve_cases env l.session l.accounts targetQuota faults with
    ⟨err, hres⟩ | ⟨delta, funding, paid, -, -, ⟨message, hres⟩ | hres⟩
  · rw [hres]
    exact { h with }
  · rw [hres]
    exact { h with }
  · rw [hres]
    exact ⟨by simpa using h.paid, by simpa using h.settled, by simpa using h.refunded, h.once⟩

theorem Guarded.settle {actualQuota : Int} {faults : SettleFaults}
    (hidle : LateSettleIdle l (.settle actualQuota faults)) :
    Guarded (l.step env (.settle actualQuota faults)) := by
  cases hsettled : l.session.settled with
  | true =>
    rw [settle_idle hsettled]
    exact h
  | false =>
    have hfunding : l.session.fundingSettled = false := by
      by_contra hpaid
      simp [h.paid (by simpa using hpaid)] at hsettled
    by_cases hdelta : actualQuota = l.session.preConsumedQuota
    · rw [settle_exact hsettled hdelta]
      exact ⟨fun _ => rfl, fun _ => rfl, h.refunded, h.once⟩
    rcases settle_cases l.accounts faults hfunding hsettled hdelta with
      ⟨message, -, hrefused⟩ | ⟨paid, hpaid, hresult⟩
    · rw [settle_refused hsettled hrefused]
      exact h
    -- the funding source was reached, so there has been no refund
    have hopen : l.refundMoved = false := by
      by_contra hmoved
      rcases hidle (h.refunded (by simpa using hmoved)) with hdone | hsame | ⟨_, herror⟩
      · simp [hsettled] at hdone
      · exact hdelta hsame
      · simp [hpaid] at herror
    rcases hresult with ⟨message, hres⟩ | hres <;> simp only [step, hres]
    all_goals exact ⟨fun _ => rfl, fun _ => rfl, by simp [hopen], by simp [hopen]⟩

theorem Guarded.refund (faults : RefundCallFaults) : Guarded (l.step env (.refund faults)) := by
  by_cases hnone : (l.session.settled || l.session.refunded || !l.session.needsRefundLocked) = true
  · rw [refund_none hnone]
    exact h
  · have hunsettled : l.settleMoved = false := by
      by_contra hmoved
      simp [h.settled (by simpa using hmoved)] at hnone
    simp only [step, BillingSession.refund, if_neg hnone]
    exact ⟨h.paid, h.settled, fun _ => rfl, by simp [hunsettled]⟩

theorem Guarded.step (hidle : LateSettleIdle l c) : Guarded (l.step env c) := by
  cases c with
  | reserve targetQuota faults => exact h.reserve targetQuota faults
  | settle => exact h.settle hidle
  | refund faults => exact h.refund faults

end

structure Exclusive (before : Accounts) (l : Ledger) : Prop where
  once : ¬ (l.settleMoved = true ∧ l.refundMoved = true)
  net : l.net before = l.session.preConsumedQuota ∨
    (∃ actualQuota ∈ l.settledAt, l.net before = actualQuota) ∨ l.net before = 0

theorem Phase.exclusive (h : Phase before l) : Exclusive before l := by
  cases h with
  | pending h => exact ⟨by simp [h.settleMoved], .inl h.holds.debit⟩
  | settled h =>
    obtain ⟨actualQuota, hsettled, hnet⟩ := h.net
    exact ⟨by simp [h.refundMoved], .inr (.inl ⟨actualQuota, hsettled, hnet⟩)⟩
  | refunded h => exact ⟨by simp [h.settleMoved], .inr (.inr h.net)⟩

theorem Phase.lateSettleIdle (h : Phase before l) (hsound : CallSound l c)
    (hexclusive : Exclusive before (l.step env c)) : LateSettleIdle l c := by
  cases c with
  | reserve | refund => trivial
  | settle =>
    cases h with
    | pending h =>
      intro hrefunded
      simp [h.refunded] at hrefunded
    | settled h =>
      intro _
      exact .inl h.settled
    | refunded h =>
      refine h.lateSettleIdle env hsound ?_
      by_contra hmoved
      refine hexclusive.once ⟨by simpa using hmoved, ?_⟩
      exact h.refundMoved

structure Lawful (before : Accounts) (l : Ledger) : Prop where
  phase : Phase before l
  unsettled : l.session.refunded = true → l.settledAt = none

theorem Lawful.law (h : Lawful before l) : Law before l := by
  cases h.phase with
  | pending hp =>
    have hnet := hp.holds.debit
    refine ⟨fun _ _ => hnet, ?_, ?_, ?_⟩
    · simp [hp.settledAt]
    · simp [hp.refunded]
    · intro hplay _
      exact (hp.token hplay).trans hnet.symm
  | settled hs =>
    obtain ⟨actualQuota, hsettled, hnet⟩ := hs.net
    refine ⟨?_, ?_, ?_, hs.token⟩
    · simp [hsettled]
    · intro quota hquota
      rw [hsettled] at hquota
      rw [hnet]
      exact Option.some.inj hquota
    · simp [hs.refunded]
  | refunded hr =>
    refine ⟨?_, ?_, fun _ => hr.net, ?_⟩
    · simp [hr.refunded]
    · simp [h.unsettled hr.refunded]
    · intro hplay _
      exact (hr.token hplay).trans hr.net.symm

theorem Lawful.step (h : Lawful before l) (hsound : CallSound l c) (hlate : NoLateSettle l c) :
    Lawful before (l.step env c) := by
  have hidle : LateSettleIdle l c := by
    cases c with
    | settle =>
      intro hrefunded
      rw [show l.session.refunded = false from hlate] at hrefunded
      contradiction
    | reserve | refund => trivial
  refine ⟨h.phase.step hsound hidle, ?_⟩
  cases c with
  | reserve =>
    intro hrefunded
    simp only [step, reserve_refunded] at hrefunded
    exact h.unsettled hrefunded
  | settle =>
    intro hrefunded
    simp only [step, settle_refunded] at hrefunded
    rw [show l.session.refunded = false from hlate] at hrefunded
    contradiction
  | refund =>
    intro hrefunded
    cases h.phase with
    | pending hp => exact hp.settledAt
    | settled hs =>
      rw [hs.step] at hrefunded
      simp [hs.refunded] at hrefunded
    | refunded hr => exact h.unsettled hr.refunded

end Run

end Ledger

/-! ## Sessions of `NewBillingSession` -/

section Session

variable (env : Env) (info : RelayInfo) (before after : Accounts) (quota : Int)
  (wallet subscription : TryInputs) (hasSubFault : Bool)
  (session : BillingSession)

/--
The law of the ledger holds in every state of every run exactly if the session
was not opened on the wallet, without trust, for an amount below zero.
-/
theorem session_ledger_iff (hready : Ready env info before)
    (hwallet : wallet.rollback = false) (hsubscription : subscription.rollback = false)
    (hnew : newBillingSession env info before quota wallet subscription hasSubFault =
      some (after, .ok session)) :
    (∀ calls, Admits (step env) (fun l c => l.CallSound c ∧ l.NoLateSettle c)
        (.start after session) calls →
      Ledger.Law before (run (step env) (.start after session) calls)) ↔
    (session.funding.source = .wallet → session.trusted = false → 0 ≤ quota) := by
  obtain ⟨hopened, hquota⟩ := newBillingSession_opened hnew hready hwallet hsubscription
  rw [← hquota]
  constructor
  · intro hlaw
    -- already before the first call: nothing is taken for a negative amount
    have hpending := (hlaw [] trivial).pending rfl hopened.refunded
    have htaken := hopened.holds.debit
    simp only [net, run_nil, start] at hpending
    omega
  · intro hpos calls hcalls
    have hstart : Ledger.Lawful before (.start after session) :=
      ⟨.pending (pending_start hopened hpos), fun _ => rfl⟩
    exact (Admits.invariant (Ledger.Lawful before)
      (fun l c h hc => h.step hc.1 hc.2) hstart hcalls).law

/--
If no settlement after a refund reaches the funding source, at most one of the
two moves money, whatever fails.  With compensations that succeed, this is the
exact condition for settling and refunding to exclude each other at every point
of a run, the net amount included.
-/
theorem settle_refund_exclusive
    (hnew : newBillingSession env info before quota wallet subscription hasSubFault =
      some (after, .ok session)) (calls : List Call) :
    (Admits (step env) Ledger.LateSettleIdle (.start after session) calls →
      ¬ ((run (step env) (.start after session) calls).settleMoved = true ∧
        (run (step env) (.start after session) calls).refundMoved = true)) ∧
    (Ready env info before → wallet.rollback = false → subscription.rollback = false →
      (session.funding.source = .wallet → session.trusted = false → 0 ≤ quota) →
      Admits (step env) Ledger.CallSound (.start after session) calls →
      ((∀ done rest, calls = done ++ rest →
        Ledger.Exclusive before (run (step env) (.start after session) done)) ↔
      Admits (step env) Ledger.LateSettleIdle (.start after session) calls)) := by
  constructor
  · intro hidle
    exact (Admits.invariant Ledger.Guarded (fun l c h hc => h.step hc)
      (guarded_start (newBillingSession_unused hnew)) hidle).once
  · intro hready hwallet hsubscription hquota hsound
    obtain ⟨hopened, hiff⟩ := newBillingSession_opened hnew hready hwallet hsubscription
    have hstart : Ledger.Phase before (.start after session) :=
      .pending (pending_start hopened (hiff.mpr hquota))
    exact forall_prefix_iff_admits (fun l h => h.exclusive)
      (fun l c h hc hidle => h.step hc hidle)
      (fun l c h hc hlaw => h.lateSettleIdle hc hlaw) hstart hsound

end Session

/-! ## A request paid from the wallet -/

def plainEnv : Env where
  zone := 0
  fuel := 1
  now := 1850000000
  trustQuota := 0
  contextTokenQuota := 0
  formatQuota := fun quota => toString quota

def walletInfo : RelayInfo where
  requestId := "req"
  userId := 7
  tokenId := 3
  isPlayground := false
  forcePreConsume := false
  tokenUnlimited := false
  userQuota := 0
  billingPreference := "wallet_only"
  finalPreConsumedQuota := 0
  billingSource := none
  subscriptionId := 0
  subscriptionPreConsumed := 0
  subscriptionPostDelta := 0
  subscriptionAmountTotal := 0
  subscriptionAmountUsedAfterPreConsume := 0

def walletAccounts : Accounts where
  users := fun _ => 1000
  tokens := fun _ => { remainQuota := 500, usedQuota := 0 }
  db :=
    { subs := ⟨[], List.nodup_nil⟩
      records := fun _ => none
      plans := fun _ => none
      groups := fun _ => "default" }

def plainInputs : TryInputs where
  userQuota := some 1000
  tokenRemain := some 500
  token := false
  wallet := false
  subscription := .none
  rollback := false

def walletSession (quota : Int) : BillingSession :=
  { fresh { walletInfo with
      userQuota := 1000, finalPreConsumedQuota := quota, billingSource := some .wallet }
      (.wallet { userId := 7, consumed := max 0 quota }) with
    preConsumedQuota := quota
    tokenConsumed := max 0 quota }

def walletCharged : Accounts := (walletAccounts.chargeToken 3 30).chargeUser 7 30

theorem walletSession_opened :
    newBillingSession plainEnv walletInfo walletAccounts 30 plainInputs plainInputs false =
      some (walletCharged, .ok (walletSession 30)) := rfl

theorem walletAccounts_ready : Ready plainEnv walletInfo walletAccounts where
  fresh := rfl
  rows := by simp [walletAccounts]
  noReset := by decide

def reserveFaults : ReserveFaults where
  funding := false
  tokenRemain := some 470
  token := false
  rollback := false

def settleFaults : SettleFaults where
  funding := false
  token := false

def refundFaults : RefundCallFaults where
  wallet := false
  first := ⟨false, false, false⟩
  second := ⟨false, false, false⟩
  third := ⟨false, false, false⟩
  extra := false
  token := false

def reserveThenSettle : List Call := [.reserve 50 reserveFaults, .settle 80 settleFaults]

def refundThenSettle : List Call := [.refund refundFaults, .settle 50 settleFaults]

theorem session_ledger_wallet :
    Ledger.Law walletAccounts
      (run (step plainEnv) (.start walletCharged (walletSession 30)) reserveThenSettle) :=
  (session_ledger_iff plainEnv walletInfo walletAccounts walletCharged 30 plainInputs
    plainInputs false (walletSession 30) walletAccounts_ready rfl rfl
    walletSession_opened).mpr (by decide) reserveThenSettle (by decide)

/-- For an amount of -5 nothing is taken, and settling 10 takes 15. -/
theorem negative_quota_overcharged :
    newBillingSession plainEnv walletInfo walletAccounts (-5) plainInputs plainInputs false =
      some (walletAccounts, .ok (walletSession (-5))) ∧
    (start walletAccounts (walletSession (-5))).net walletAccounts = 0 ∧
    (run (step plainEnv) (.start walletAccounts (walletSession (-5)))
      [.settle 10 settleFaults]).net walletAccounts = 15 := ⟨rfl, by decide, by decide⟩

/-- 50 are reserved and refunded, and a late settlement of these 50 moves nothing. -/
def refundThenIdle : List Call :=
  [.reserve 50 reserveFaults, .refund refundFaults, .settle 50 settleFaults]

theorem settle_refund_exclusive_wallet :
    let l := run (step plainEnv) (.start walletCharged (walletSession 30)) refundThenIdle
    l.refundMoved = true ∧ l.session.settled = true ∧ Ledger.Exclusive walletAccounts l :=
  ⟨by decide, by decide,
    ((settle_refund_exclusive plainEnv walletInfo walletAccounts walletCharged 30 plainInputs
      plainInputs false (walletSession 30) walletSession_opened refundThenIdle).2
      walletAccounts_ready rfl rfl (by decide) (by decide)).mpr
      ⟨trivial, trivial, fun _ => .inr (.inl (by decide)), trivial⟩ refundThenIdle [] (by simp)⟩

/-- 30 pre-consumed, refunded, then settled at 50: 20 are taken. -/
theorem settle_after_refund_moves :
    newBillingSession plainEnv walletInfo walletAccounts 30 plainInputs plainInputs false =
      some (walletCharged, .ok (walletSession 30)) ∧
    let l := run (step plainEnv) (.start walletCharged (walletSession 30)) refundThenSettle
    l.settleMoved = true ∧ l.refundMoved = true ∧ l.net walletAccounts = 20 ∧
      l.settledAt = some 50 ∧ l.session.preConsumedQuota = 30 := ⟨rfl, by decide⟩

end NewApi.Billing
