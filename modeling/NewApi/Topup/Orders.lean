import NewApi.Foundation.Decimal

/-!
# Top-up orders

The functions of `model/topup.go` that complete an order, and `EpayNotify`.
Each of the five functions of the model layer is one transaction: it reads the
row, checks it, saves it with status `success` and adds the quota to the user.
`QuotaPerUnit` and `Money` are exact numbers here.
-/

namespace NewApi.Topup

open Foundation

inductive PaymentProvider where
  | epay
  | stripe
  | creem
  | waffo
  | waffoPancake
  | balance
  | other (name : String)
  deriving DecidableEq

inductive TopUpStatus where
  | pending
  | success
  | failed
  | expired
  deriving DecidableEq

structure TopUp where
  id : Int
  userId : Int
  amount : Int
  money : ℚ
  tradeNo : String
  paymentMethod : String
  paymentProvider : PaymentProvider
  createTime : Int
  completeTime : Int
  status : TopUpStatus
  deriving DecidableEq

structure Payer where
  quota : Int
  email : String
  stripeCustomer : String
  deriving DecidableEq

inductive TopUpError where
  | noReference
  | noTradeNo
  | notFound
  | providerMismatch
  | statusError
  | notPending
  | invalidQuota
  | database
  | rechargeFailed
  deriving DecidableEq

inductive Verdict where
  | refuse (e : TopUpError)
  /-- Return `nil` and write nothing. -/
  | done
  | credit (quota : Int)

def positiveQuota (quota : Int) : Verdict :=
  if quota ≤ 0 then .refuse .invalidQuota else .credit quota

/-- The check of a gateway's function: its own provider, an early return on
`success` where the function has one, and a pending order. -/
def gatewayVerdict (provider : PaymentProvider) (idempotent : Bool)
    (quota : TopUp → Verdict) (t : TopUp) : Verdict :=
  if t.paymentProvider ≠ provider then .refuse .providerMismatch
  else if idempotent = true ∧ t.status = .success then .done
  else if t.status ≠ .pending then .refuse .statusError
  else quota t

def amountQuota (quotaPerUnit : ℚ) (t : TopUp) : Int := intPart (t.amount * quotaPerUnit)

inductive Completion where
  | recharge (customerId : String)
  | rechargeCreem (customerEmail : String)
  | rechargeWaffo
  | rechargeWaffoPancake
  | manualCompleteTopUp

open Completion

def manualQuota (quotaPerUnit : ℚ) (t : TopUp) : Int :=
  if t.paymentProvider = .stripe then intPart (t.money * quotaPerUnit)
  else amountQuota quotaPerUnit t

def manualVerdict (quotaPerUnit : ℚ) (t : TopUp) : Verdict :=
  if t.status = .success then .done
  else if t.status ≠ .pending then .refuse .notPending
  else positiveQuota (manualQuota quotaPerUnit t)

namespace Completion

def verdict (quotaPerUnit : ℚ) : Completion → TopUp → Verdict
  | .recharge _ =>
    -- the product is a float that the database adds to the column
    gatewayVerdict .stripe false fun t => .credit (truncate (t.money * quotaPerUnit))
  | .rechargeCreem _ => gatewayVerdict .creem false fun t => .credit t.amount
  | .rechargeWaffo =>
    gatewayVerdict .waffo true fun t => positiveQuota (amountQuota quotaPerUnit t)
  | .rechargeWaffoPancake =>
    gatewayVerdict .waffoPancake true fun t => positiveQuota (amountQuota quotaPerUnit t)
  | .manualCompleteTopUp => manualVerdict quotaPerUnit

def creditUser (c : Completion) (quota : Int) (u : Payer) : Payer :=
  match c with
  | .recharge customerId => { u with quota := u.quota + quota, stripeCustomer := customerId }
  | .rechargeCreem customerEmail =>
    { u with
      quota := u.quota + quota
      email := if customerEmail ≠ "" ∧ u.email = "" then customerEmail else u.email }
  | _ => { u with quota := u.quota + quota }

@[simp] theorem creditUser_quota (c : Completion) (quota : Int) (u : Payer) :
    (c.creditUser quota u).quota = u.quota + quota := by
  cases c <;> rfl

def missingReference : Completion → TopUpError
  | .manualCompleteTopUp => .noTradeNo
  | _ => .noReference

def report : Completion → TopUpError → TopUpError
  | .manualCompleteTopUp, e => e
  | _, _ => .rechargeFailed

end Completion

def TopUp.complete (t : TopUp) (now : Int) : TopUp :=
  { t with completeTime := now, status := .success }

/-- The body of the transaction, with no other transaction in between.  An
update that leaves the range of the column fails. -/
def Completion.transaction (c : Completion) (quotaPerUnit : ℚ) (now : Int) (order : Option TopUp)
    (u : Payer) (saveFault creditFault : Bool) : Except TopUpError (Option TopUp × Payer) :=
  match order with
  | none => .error .notFound
  | some t =>
    match c.verdict quotaPerUnit t with
    | .refuse e => .error e
    | .done => .ok (some t, u)
    | .credit quota =>
      if saveFault = true then .error .database
      else if creditFault = true ∨ ¬ Fits64 (u.quota + quota) then .error .database
      else .ok (some (t.complete now), c.creditUser quota u)

/-- `Recharge`, `RechargeCreem`, `RechargeWaffo`, `RechargeWaffoPancake` and
`ManualCompleteTopUp`; `order` is the row with this trade number. -/
def Completion.complete (c : Completion) (quotaPerUnit : ℚ) (now : Int) (referenceId : String)
    (order : Option TopUp) (u : Payer) (saveFault creditFault : Bool) :
    Except TopUpError (Option TopUp × Payer) :=
  if referenceId = "" then .error c.missingReference
  else (c.transaction quotaPerUnit now order u saveFault creditFault).mapError c.report

structure EpayOutcome where
  order : TopUp
  user : Payer
  credited : Bool

/-- `EpayNotify` on a verified notification with status `TRADE_SUCCESS`: the
order is saved and the quota added in two separate statements. -/
def epayNotify (quotaPerUnit : ℚ) (paidWith : String) (t : TopUp) (u : Payer)
    (updateFault increaseFault : Bool) : EpayOutcome :=
  if t.paymentProvider ≠ .epay then ⟨t, u, false⟩
  else if t.status ≠ .pending then ⟨t, u, false⟩
  else if updateFault = true then ⟨t, u, false⟩
  else
    let paid := { t with paymentMethod := paidWith, status := .success }
    let quota := amountQuota quotaPerUnit t
    -- `IncreaseUserQuota` refuses a negative quota
    if quota < 0 ∨ increaseFault = true ∨ ¬ Fits64 (u.quota + quota) then ⟨paid, u, false⟩
    else ⟨paid, { u with quota := u.quota + quota }, true⟩

inductive Gateway where
  | epay
  | stripe (customerId : String)
  | creem (customerEmail : String)
  | waffo
  | waffoPancake

open Gateway

namespace Gateway

def provider : Gateway → PaymentProvider
  | .epay => .epay
  | .stripe _ => .stripe
  | .creem _ => .creem
  | .waffo => .waffo
  | .waffoPancake => .waffoPancake

def completion : Gateway → Option Completion
  | .epay => none
  | .stripe customerId => some (.recharge customerId)
  | .creem customerEmail => some (.rechargeCreem customerEmail)
  | .waffo => some .rechargeWaffo
  | .waffoPancake => some .rechargeWaffoPancake

def callback (g : Gateway) (quotaPerUnit : ℚ) (now : Int) (t : TopUp) (u : Payer) : Option Payer :=
  match g.completion with
  | none =>
    let outcome := epayNotify quotaPerUnit t.paymentMethod t u false false
    if outcome.credited = true then some outcome.user else none
  | some c =>
    match c.complete quotaPerUnit now t.tradeNo (some t) u false false with
    | .ok (_, u') => some u'
    | .error _ => none

def quota (g : Gateway) (quotaPerUnit : ℚ) (t : TopUp) : Int :=
  match g with
  | .stripe _ => truncate (t.money * quotaPerUnit)
  | .creem _ => t.amount
  | _ => amountQuota quotaPerUnit t

end Gateway

variable {t : TopUp} {u u' : Payer} {g : Gateway}
  {c : Completion} {quotaPerUnit : ℚ} {now quota : Int} {order : Option TopUp}

theorem Completion.complete_ok_cases {referenceId : String} {saveFault creditFault : Bool}
    {r : Option TopUp × Payer}
    (h : c.complete quotaPerUnit now referenceId (some t) u saveFault creditFault = .ok r) :
    (c.verdict quotaPerUnit t = .done ∧ r = (some t, u)) ∨
      ∃ quota, c.verdict quotaPerUnit t = .credit quota ∧
        r = (some (t.complete now), c.creditUser quota u) := by
  unfold complete at h
  split at h
  · contradiction
  simp only [transaction] at h
  cases hverdict : c.verdict quotaPerUnit t with
  | refuse =>
    rw [hverdict] at h
    contradiction
  | done =>
    rw [hverdict] at h
    simp only [Except.mapError, Except.ok.injEq] at h
    exact .inl ⟨rfl, h.symm⟩
  | credit quota =>
    rw [hverdict] at h
    dsimp only at h
    split_ifs at h with hsave hcredit
    · contradiction
    · contradiction
    · simp only [Except.mapError, Except.ok.injEq] at h
      exact .inr ⟨quota, rfl, h.symm⟩

theorem positiveQuota_cases (quota : Int) :
    positiveQuota quota = .credit quota ∨ positiveQuota quota = .refuse .invalidQuota := by
  unfold positiveQuota
  split
  · exact .inr rfl
  · exact .inl rfl

theorem Completion.quota_of_complete
    (hverdict : c.verdict quotaPerUnit t = .credit quota ∨
      c.verdict quotaPerUnit t = .refuse .invalidQuota)
    (h : c.complete quotaPerUnit now t.tradeNo (some t) u false false = .ok (order, u')) :
    u'.quota = u.quota + quota ∧ Fits64 (u.quota + quota) := by
  rcases hverdict with hcredit | hrefuse
  · by_cases href : t.tradeNo = ""
    · simp [complete, href] at h
    by_cases hfits : Fits64 (u.quota + quota)
    · simp only [complete, transaction, href, hcredit, hfits, Except.mapError] at h
      cases h
      exact ⟨c.creditUser_quota quota u, hfits⟩
    · simp [complete, transaction, href, hcredit, hfits, Except.mapError] at h
  · by_cases href : t.tradeNo = "" <;>
      simp [complete, transaction, href, hrefuse, Except.mapError] at h

theorem Gateway.verdict_pending (hc : g.completion = some c)
    (hprovider : t.paymentProvider = g.provider) (hpending : t.status = .pending)
    (quotaPerUnit : ℚ) :
    c.verdict quotaPerUnit t = .credit (g.quota quotaPerUnit t) ∨
      c.verdict quotaPerUnit t = .refuse .invalidQuota := by
  have hown : ∀ idempotent quota, gatewayVerdict g.provider idempotent quota t = quota t := by
    simp [gatewayVerdict, hprovider, hpending]
  cases g with
  | epay => contradiction
  | stripe =>
    cases hc
    exact .inl (hown false fun t => .credit (truncate (t.money * quotaPerUnit)))
  | creem =>
    cases hc
    exact .inl (hown false fun t => .credit t.amount)
  | _ =>
    cases hc
    have h := hown true fun t => positiveQuota (amountQuota quotaPerUnit t)
    exact (positiveQuota_cases (amountQuota quotaPerUnit t)).imp h.trans h.trans

private theorem manualCompleteTopUp_pending (hpending : t.status = .pending) (quotaPerUnit : ℚ) :
    manualCompleteTopUp.verdict quotaPerUnit t = .credit (manualQuota quotaPerUnit t) ∨
      manualCompleteTopUp.verdict quotaPerUnit t = .refuse .invalidQuota := by
  have h : manualCompleteTopUp.verdict quotaPerUnit t =
      positiveQuota (manualQuota quotaPerUnit t) := by
    simp [verdict, manualVerdict, hpending]
  exact (positiveQuota_cases _).imp h.trans h.trans

theorem manualVerdict_credit (h : manualVerdict quotaPerUnit t = .credit quota) :
    t.status = .pending ∧ quota = manualQuota quotaPerUnit t := by
  unfold manualVerdict positiveQuota at h
  split_ifs at h with hsuccess hpending hquota
  exact ⟨not_not.mp hpending, (Verdict.credit.inj h).symm⟩

theorem manualVerdict_done (h : manualVerdict quotaPerUnit t = .done) : t.status = .success := by
  unfold manualVerdict positiveQuota at h
  split_ifs at h with hsuccess
  exact hsuccess

theorem Gateway.quota_of_callback (hprovider : t.paymentProvider = g.provider)
    (hpending : t.status = .pending) (h : g.callback quotaPerUnit now t u = some u') :
    u'.quota = u.quota + g.quota quotaPerUnit t ∧ Fits64 (u.quota + g.quota quotaPerUnit t) := by
  unfold callback at h
  split at h
  next hepay =>
    obtain rfl : g = .epay := by
      cases g <;> simp_all [completion]
    obtain ⟨hcredited, huser⟩ := Option.ite_none_right_eq_some.mp h
    cases huser
    simp only [epayNotify] at hcredited ⊢
    split_ifs at hcredited ⊢ with hprovider hstatus hupdate hquota
    exact ⟨rfl, by simpa [quota] using fun hfits => hquota (.inr (.inr hfits))⟩
  next c hc =>
    split at h
    next order paid hok =>
      cases h
      exact quota_of_complete (g.verdict_pending hc hprovider hpending _) hok
    next => contradiction

private theorem manualQuota_creem (hprovider : t.paymentProvider = .creem) (quotaPerUnit : ℚ) :
    manualQuota quotaPerUnit t = amountQuota quotaPerUnit t := by
  simp [manualQuota, hprovider]

/--
`ManualCompleteTopUp` adds what the gateway's callback would have added, except
for creem: the amount of such an order already is a quota, and it is multiplied
by `QuotaPerUnit` once more.
-/
theorem manualCompleteTopUp_eq_callback_iff (g : Gateway) (quotaPerUnit : ℚ) (now : Int) (t : TopUp)
    (u manual paid : Payer) (order : Option TopUp) (hprovider : t.paymentProvider = g.provider)
    (hpending : t.status = .pending)
    (hmanual : manualCompleteTopUp.complete quotaPerUnit now t.tradeNo (some t) u
      false false = .ok (order, manual)) (hcallback : g.callback quotaPerUnit now t u = some paid) :
    manual.quota - u.quota = paid.quota - u.quota ↔
      t.paymentProvider ≠ .creem ∨ amountQuota quotaPerUnit t = t.amount := by
  obtain ⟨hm, hmfits⟩ :=
    quota_of_complete (manualCompleteTopUp_pending hpending quotaPerUnit) hmanual
  obtain ⟨hp, hpfits⟩ := quota_of_callback hprovider hpending hcallback
  by_cases hcreem : g.provider = .creem
  · rw [hcreem] at hprovider
    have hquota : g.quota quotaPerUnit t = t.amount := by
      cases g <;> first | rfl | cases hcreem
    rw [manualQuota_creem hprovider] at hm
    simp only [hm, hp, hquota, hprovider, ne_eq, not_true_eq_false, false_or]
    omega
  · have hquota : manualQuota quotaPerUnit t = wrap64 (g.quota quotaPerUnit t) := by
      cases g with
      | creem => exact absurd rfl hcreem
      | stripe => simp [manualQuota, hprovider, provider, quota, intPart]
      | _ =>
        simp [manualQuota, hprovider, provider, quota, amountQuota, intPart,
          wrap64_of_fits (fits64_wrap64 _)]
    rw [hquota] at hm hmfits
    have hwrap := add_wrap64_eq_of_fits hpfits hmfits
    refine iff_of_true ?_ (.inl (hprovider ▸ hcreem))
    rw [hm, hp, hwrap]

def creemOrder : TopUp :=
  { id := 1, userId := 7, amount := 500000, money := 1, tradeNo := "ref_1",
    paymentMethod := "creem", paymentProvider := .creem, createTime := 0, completeTime := 0,
    status := .pending }

def waffoOrder : TopUp :=
  { creemOrder with amount := 2, paymentMethod := "waffo", paymentProvider := .waffo }

def emptyPayer : Payer := { quota := 0, email := "", stripeCustomer := "" }

/-- An order of 500000 quota units: the callback adds 500000, the manual
completion 250000000000. -/
theorem manualCompleteTopUp_creem_counterexample :
    manualCompleteTopUp.complete 500000 10 creemOrder.tradeNo (some creemOrder)
        emptyPayer false false =
      .ok (some (creemOrder.complete 10), { emptyPayer with quota := 250000000000 }) ∧
    (creem "").callback 500000 10 creemOrder emptyPayer =
      some { emptyPayer with quota := 500000 } := by
  decide +kernel

theorem manualCompleteTopUp_eq_callback_waffo :
    (1000000 : Int) - 0 = 1000000 - 0 ↔
      waffoOrder.paymentProvider ≠ .creem ∨ amountQuota 500000 waffoOrder = waffoOrder.amount :=
  manualCompleteTopUp_eq_callback_iff .waffo 500000 10 waffoOrder emptyPayer
    { emptyPayer with quota := 1000000 } { emptyPayer with quota := 1000000 }
    (some (waffoOrder.complete 10)) rfl rfl (by decide +kernel)
    (by decide +kernel)

end NewApi.Topup
