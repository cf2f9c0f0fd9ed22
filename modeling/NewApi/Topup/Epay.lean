import NewApi.Foundation.Run
import NewApi.Topup.Orders

/-!
# Completion of an epay order

The calls that can complete an order of the epay gateway: `EpayNotify` on a
verified notification with status `TRADE_SUCCESS`, and `ManualCompleteTopUp`.
Both hold the lock of the trade number, so they run one after another.  Every
database operation of a call may fail.
-/

namespace NewApi.Topup

open Foundation

/-- The order's row, its user and the quotas that were added for it. -/
structure EpayOrder where
  order : TopUp
  user : Payer
  credits : List Int
  deriving DecidableEq

inductive EpayCall where
  | notify (paidWith : String) (updateFault increaseFault : Bool)
  | complete (now : Int) (saveFault creditFault : Bool)

namespace EpayOrder

variable (quotaPerUnit : ℚ)

def start (order : TopUp) (user : Payer) : EpayOrder :=
  { order := order, user := user, credits := [] }

def step (s : EpayOrder) : EpayCall → EpayOrder
  | .notify paidWith updateFault increaseFault =>
    let outcome := epayNotify quotaPerUnit paidWith s.order s.user updateFault increaseFault
    { order := outcome.order
      user := outcome.user
      credits :=
        if outcome.credited = true then s.credits ++ [amountQuota quotaPerUnit s.order]
        else s.credits }
  | .complete now saveFault creditFault =>
    match Completion.manualCompleteTopUp.complete quotaPerUnit now s.order.tradeNo
        (some s.order) s.user saveFault creditFault with
    | .ok (some order, user) =>
      { order := order
        user := user
        credits :=
          if s.order.status = .pending then s.credits ++ [manualQuota quotaPerUnit s.order]
          else s.credits }
    | _ => s

/-- The call is not a callback that saves the status and then fails to add the quota. -/
def Credits (s : EpayOrder) : EpayCall → Prop
  | .notify _ updateFault increaseFault =>
    s.order.status = .pending → updateFault = false →
      0 ≤ amountQuota quotaPerUnit s.order ∧ increaseFault = false ∧
        Fits64 (s.user.quota + amountQuota quotaPerUnit s.order)
  | .complete .. => True

instance (s : EpayOrder) (call : EpayCall) : Decidable (s.Credits quotaPerUnit call) := by
  unfold Credits
  split
  · infer_instance
  · infer_instance

inductive Transition (s : EpayOrder) (call : EpayCall) : EpayOrder → Prop
  | idle (hcredits : s.Credits quotaPerUnit call) : Transition s call s
  | credited (paid : TopUp) (hpending : s.order.status = .pending)
      (hsuccess : paid.status = .success) (hamount : paid.amount = s.order.amount)
      (hprovider : paid.paymentProvider = s.order.paymentProvider)
      (hcredits : s.Credits quotaPerUnit call) :
      Transition s call
        { order := paid
          user := { s.user with quota := s.user.quota + amountQuota quotaPerUnit s.order }
          credits := s.credits ++ [amountQuota quotaPerUnit s.order] }
  /-- The status is saved and the quota is not added. -/
  | lost (paid : TopUp) (hpending : s.order.status = .pending)
      (hsuccess : paid.status = .success)
      (hprovider : paid.paymentProvider = s.order.paymentProvider)
      (hlost : ¬ s.Credits quotaPerUnit call) :
      Transition s call { s with order := paid }

open Transition

variable {quotaPerUnit}

private theorem notify_transition (s : EpayOrder) (hepay : s.order.paymentProvider = .epay)
    (paidWith : String) (updateFault increaseFault : Bool) :
    Transition quotaPerUnit s (.notify paidWith updateFault increaseFault)
      (s.step quotaPerUnit (.notify paidWith updateFault increaseFault)) := by
  by_cases hpending : s.order.status = .pending
  · cases updateFault with
    | true =>
      have hidle : s.step quotaPerUnit (.notify paidWith true increaseFault) = s := by
        simp [step, epayNotify, hepay, hpending]
      rw [hidle]
      apply idle
      intro _ hfault
      contradiction
    | false =>
      by_cases hcredits : s.Credits quotaPerUnit (.notify paidWith false increaseFault)
      · obtain ⟨hquota, rfl, hfits⟩ := hcredits hpending rfl
        have hstep := credited
          { s.order with paymentMethod := paidWith, status := .success } hpending rfl rfl rfl
          hcredits
        simpa [step, epayNotify, hepay, hpending, hfits, not_lt.mpr hquota] using hstep
      have hstep := lost
        { s.order with paymentMethod := paidWith, status := .success } hpending rfl rfl
        hcredits
      have hrefused : amountQuota quotaPerUnit s.order < 0 ∨ increaseFault = true ∨
          ¬ Fits64 (s.user.quota + amountQuota quotaPerUnit s.order) := by
        by_contra hnone
        apply hcredits
        intro _ _
        simp only [not_or, not_lt, Bool.not_eq_true, not_not] at hnone
        exact hnone
      simpa [step, epayNotify, hepay, hpending, hrefused] using hstep
  · have hidle : s.step quotaPerUnit (.notify paidWith updateFault increaseFault) = s := by
      simp [step, epayNotify, hepay, hpending]
    rw [hidle]
    apply idle
    intro h
    contradiction

private theorem complete_transition (s : EpayOrder) (hepay : s.order.paymentProvider = .epay)
    (now : Int) (saveFault creditFault : Bool) :
    Transition quotaPerUnit s (.complete now saveFault creditFault)
      (s.step quotaPerUnit (.complete now saveFault creditFault)) := by
  have hquota : manualQuota quotaPerUnit s.order = amountQuota quotaPerUnit s.order := by
    simp [manualQuota, hepay]
  simp only [step]
  split
  · next order user hok =>
    rcases Completion.complete_ok_cases hok with ⟨hdone, hr⟩ | ⟨quota, hcredit, hr⟩
    · have hsuccess := manualVerdict_done hdone
      simp only [Prod.mk.injEq, Option.some.injEq] at hr
      rcases hr with ⟨rfl, rfl⟩
      rw [if_neg (by simp [hsuccess])]
      exact idle trivial
    · rcases manualVerdict_credit hcredit with ⟨hpending, rfl⟩
      simp only [Prod.mk.injEq, Option.some.injEq] at hr
      rcases hr with ⟨rfl, rfl⟩
      rw [if_pos hpending, hquota]
      exact credited (s.order.complete now) hpending rfl rfl rfl trivial
  · exact idle trivial

variable (quotaPerUnit) in
theorem step_transition (s : EpayOrder) (hepay : s.order.paymentProvider = .epay)
    (call : EpayCall) : Transition quotaPerUnit s call (s.step quotaPerUnit call) := by
  cases call with
  | notify paidWith updateFault increaseFault =>
    exact notify_transition s hepay paidWith updateFault increaseFault
  | complete now saveFault creditFault =>
    exact complete_transition s hepay now saveFault creditFault

/-- The status is `success` exactly if the amount of the order was added, and
nothing else was added to the user. -/
structure Atomic (quotaPerUnit : ℚ) (first s : EpayOrder) : Prop where
  credited : s.order.status = .success ↔ s.credits = [amountQuota quotaPerUnit first.order]
  unpaid : s.order.status ≠ .success → s.credits = []
  user : s.user.quota = first.user.quota + s.credits.sum

structure Sound (quotaPerUnit : ℚ) (first s : EpayOrder) : Prop where
  epay : s.order.paymentProvider = .epay
  amount : s.order.amount = first.order.amount
  atomic : Atomic quotaPerUnit first s

variable {s : EpayOrder} {first : EpayOrder} {call : EpayCall}

section

variable (h : Sound quotaPerUnit first s)
include h

theorem Sound.amountQuota_eq :
    amountQuota quotaPerUnit s.order = amountQuota quotaPerUnit first.order := by
  rw [amountQuota, amountQuota, h.amount]

theorem Sound.step (hcredits : s.Credits quotaPerUnit call) :
    Sound quotaPerUnit first (s.step quotaPerUnit call) := by
  have htransition := s.step_transition quotaPerUnit h.epay call
  generalize EpayOrder.step quotaPerUnit s call = next at htransition ⊢
  cases htransition with
  | idle => exact h
  | credited paid hpending hsuccess hamount hprovider =>
    have hunpaid := h.atomic.unpaid (by simp [hpending])
    constructor
    · exact hprovider.trans h.epay
    · exact hamount.trans h.amount
    · constructor
      · simp [hsuccess, hunpaid, h.amountQuota_eq]
      · intro hne
        contradiction
      · simp [hunpaid, h.atomic.user]
  | lost => contradiction

theorem Sound.credits_of_atomic (hatomic : Atomic quotaPerUnit first (s.step quotaPerUnit call)) :
    s.Credits quotaPerUnit call := by
  have htransition := s.step_transition quotaPerUnit h.epay call
  generalize EpayOrder.step quotaPerUnit s call = next at htransition hatomic
  cases htransition with
  | idle hcredits | credited paid hpending hsuccess hamount hprovider hcredits => exact hcredits
  | lost paid hpending hsuccess =>
    have hunpaid := h.atomic.unpaid (by simp [hpending])
    have hcredited := hatomic.credited.mp hsuccess
    simp [hunpaid] at hcredited

end

section

variable (hepay : s.order.paymentProvider = .epay)
include hepay

private theorem step_of_success (hsuccess : s.order.status = .success) (call : EpayCall) :
    s.step quotaPerUnit call = s := by
  have htransition := s.step_transition quotaPerUnit hepay call
  generalize EpayOrder.step quotaPerUnit s call = next at htransition ⊢
  cases htransition with
  | idle => rfl
  | credited paid hpending | lost paid hpending =>
    rw [hsuccess] at hpending
    contradiction

theorem epay_step (call : EpayCall) : (s.step quotaPerUnit call).order.paymentProvider = .epay := by
  have htransition := s.step_transition quotaPerUnit hepay call
  generalize EpayOrder.step quotaPerUnit s call = next at htransition ⊢
  cases htransition with
  | idle => exact hepay
  | credited paid hpending hsuccess hamount hprovider => exact hprovider.trans hepay
  | lost paid hpending hsuccess hprovider => exact hprovider.trans hepay

private theorem epay_run (calls : List EpayCall) :
    (run (step quotaPerUnit) s calls).order.paymentProvider = .epay := by
  induction calls generalizing s with
  | nil => exact hepay
  | cons call calls ih => exact ih (epay_step hepay call)

private theorem run_of_success (hsuccess : s.order.status = .success) (calls : List EpayCall) :
    run (step quotaPerUnit) s calls = s := by
  induction calls with
  | nil => rfl
  | cons call calls ih => rw [run_cons, step_of_success hepay hsuccess, ih]

end

end EpayOrder

open EpayOrder in
/--
An order is `success` exactly when its amount was added, at every moment of a run, if and only if
no callback fails between saving the status and adding the quota.  A credit that is lost there
stays lost: no later callback and no manual completion changes an order with status `success`.
-/
theorem epayOrder_atomic_iff (quotaPerUnit : ℚ) (order : TopUp) (user : Payer)
    (hepay : order.paymentProvider = .epay) (hpending : order.status = .pending)
    (calls : List EpayCall) :
    ((∀ before after, calls = before ++ after →
        Atomic quotaPerUnit (start order user)
          (run (step quotaPerUnit) (start order user) before)) ↔
      Admits (step quotaPerUnit) (Credits quotaPerUnit) (start order user) calls) ∧
    ∀ before after, calls = before ++ after →
      (run (step quotaPerUnit) (start order user) before).order.status = .success →
      run (step quotaPerUnit) (start order user) calls =
        run (step quotaPerUnit) (start order user) before := by
  constructor
  · have hkeep (s : EpayOrder) (call : EpayCall) :
        Sound quotaPerUnit (start order user) s → True → s.Credits quotaPerUnit call →
          Sound quotaPerUnit (start order user) (s.step quotaPerUnit call) := by
      intro hsound _ hcredits
      exact hsound.step hcredits
    have hbreak (s : EpayOrder) (call : EpayCall) :
        Sound quotaPerUnit (start order user) s → True →
          Atomic quotaPerUnit (start order user) (s.step quotaPerUnit call) →
            s.Credits quotaPerUnit call := by
      intro hsound _ hatomic
      exact hsound.credits_of_atomic hatomic
    apply forall_prefix_iff_admits (fun s hsound => Sound.atomic hsound) hkeep hbreak
    · refine ⟨hepay, rfl, ?_, fun _ => rfl, ?_⟩
      · simp [start, hpending]
      · simp [start]
    · exact admits_of_forall (fun _ _ => trivial) _ _
  · rintro before after rfl hsuccess
    rw [run_append]
    apply run_of_success
    · exact epay_run hepay before
    · exact hsuccess

def epayOrder : TopUp :=
  { waffoOrder with paymentMethod := "alipay", paymentProvider := .epay }

open EpayOrder in
/-- Two callbacks and a manual completion add the amount once. -/
theorem epayOrder_atomic_repeated :
    Atomic 500000 (start epayOrder emptyPayer)
        (run (step 500000) (start epayOrder emptyPayer)
          [.notify "alipay" false false, .notify "alipay" false false, .complete 10 false false]) ∧
      (run (step 500000) (start epayOrder emptyPayer)
        [.notify "alipay" false false, .notify "alipay" false false,
          .complete 10 false false]).user.quota = 1000000 := by
  constructor
  · apply (epayOrder_atomic_iff 500000 epayOrder emptyPayer rfl rfl _).1.mpr _ _ [] rfl
    decide +kernel
  · decide +kernel

open EpayOrder in
/-- The quota cannot be added: the order is complete, and neither the next callback nor a manual
completion adds anything. -/
theorem epayOrder_credit_lost :
    run (step 500000) (start epayOrder emptyPayer) [.notify "alipay" false true] =
      { start epayOrder emptyPayer with order := { epayOrder with status := .success } } ∧
    run (step 500000) (start epayOrder emptyPayer)
        [.notify "alipay" false true, .notify "alipay" false false, .complete 10 false false] =
      { start epayOrder emptyPayer with order := { epayOrder with status := .success } } ∧
    amountQuota 500000 epayOrder = 1000000 := by
  decide +kernel

end NewApi.Topup
