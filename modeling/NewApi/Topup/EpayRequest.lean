import NewApi.Foundation.Fallible
import NewApi.Topup.Orders

/-!
# Epay orders of tokens

`RequestEpay` of `controller/topup.go`, which prices an amount and stores it as
an order.  With the display type `TOKENS` the amount of a request is a number of
tokens; the price is computed from the quotient by `QuotaPerUnit` and the order
keeps its integer part.  Prices, ratios and discounts are exact numbers here.
-/

namespace NewApi.Topup

open Foundation

inductive QuotaDisplayType where
  | usd
  | cny
  | tokens
  | custom
  deriving DecidableEq

structure EpaySettings where
  quotaDisplayType : QuotaDisplayType
  quotaPerUnit : ℚ
  price : ℚ
  minTopUp : Int
  topupGroupRatio : String → Option ℚ
  amountDiscount : Int → Option ℚ
  payMethods : List String
  /-- The address, the id and the key of the gateway are set. -/
  client : Bool

structure EpayRequest where
  amount : Int
  paymentMethod : String

/-- The user of a request, what the clock and the database give it, and which calls fail. -/
structure RequestContext where
  id : Int
  group : Option String
  tradeNo : String
  now : Int
  rowId : Int
  purchaseFault : Bool
  insertFault : Bool

inductive RequestError where
  | badRequest
  | belowMinimum (minimum : Int)
  | noGroup
  | moneyTooLow
  | noPayMethod
  | noClient
  | purchaseFailed
  | insertFailed
  deriving DecidableEq

namespace EpaySettings

variable (settings : EpaySettings)

def getTopupGroupRatio (name : String) : ℚ := (settings.topupGroupRatio name).getD 1

def getPayMoney (amount : Int) (group : String) : ℚ :=
  let dAmount : ℚ :=
    if settings.quotaDisplayType = .tokens then decimalDiv amount settings.quotaPerUnit
    else amount
  let topupGroupRatio :=
    if settings.getTopupGroupRatio group = 0 then 1 else settings.getTopupGroupRatio group
  let discount :=
    match settings.amountDiscount amount with
    | some ds => if 0 < ds then ds else 1
    | none => 1
  dAmount * settings.price * topupGroupRatio * discount

def getMinTopup : Int :=
  if settings.quotaDisplayType = .tokens then intPart (settings.minTopUp * settings.quotaPerUnit)
  else settings.minTopUp

def orderAmount (amount : Int) : Int :=
  if settings.quotaDisplayType = .tokens then intPart (decimalDiv amount settings.quotaPerUnit)
  else amount

/-- `RequestEpay`; `none` is a body that cannot be bound. -/
def requestEpay (context : RequestContext) (body : Option EpayRequest) :
    Except RequestError TopUp :=
  match body with
  | none => .error .badRequest
  | some req =>
    if req.amount < settings.getMinTopup then .error (.belowMinimum settings.getMinTopup)
    else
      match context.group with
      | none => .error .noGroup
      | some group =>
        let payMoney := settings.getPayMoney req.amount group
        if payMoney < 1 / 100 then .error .moneyTooLow
        else if req.paymentMethod ∉ settings.payMethods then .error .noPayMethod
        else if settings.client = false then .error .noClient
        else if context.purchaseFault = true then .error .purchaseFailed
        else if context.insertFault = true then .error .insertFailed
        else
          .ok
            { id := context.rowId
              userId := context.id
              amount := settings.orderAmount req.amount
              money := payMoney
              tradeNo := context.tradeNo
              paymentMethod := req.paymentMethod
              paymentProvider := .epay
              createTime := context.now
              completeTime := 0
              status := .pending }

variable {settings}

structure OrderOf (settings : EpaySettings) (request : EpayRequest) (order : TopUp) : Prop where
  amount : order.amount = settings.orderAmount request.amount
  provider : order.paymentProvider = .epay
  status : order.status = .pending
  priced : ∃ group, order.money = settings.getPayMoney request.amount group
  money : 1 / 100 ≤ order.money

variable {request : EpayRequest} {order : TopUp}

private theorem orderOf_requestEpay {context : RequestContext}
    (h : settings.requestEpay context (some request) = .ok order) :
    OrderOf settings request order := by
  unfold requestEpay at h
  cases hgroup : context.group with
  | none =>
    simp only [hgroup] at h
    cases (ite_error_eq_ok.mp h).2
  | some group =>
    simp only [hgroup, ite_error_eq_ok, Except.ok.injEq] at h
    obtain ⟨-, hmoney, -, -, -, -, rfl⟩ := h
    constructor
    · rfl
    · rfl
    · rfl
    · exact ⟨group, rfl⟩
    · exact not_lt.mp hmoney

theorem OrderOf.amount_ne_zero (h : OrderOf settings request order) : request.amount ≠ 0 := by
  intro hzero
  obtain ⟨group, hpriced⟩ := h.priced
  have hfree : settings.getPayMoney request.amount group = 0 := by
    have hround : roundAway 0 = 0 := roundAway_intCast 0
    simp [getPayMoney, hzero, decimalDiv, hround]
  have hmoney := h.money
  rw [hpriced, hfree] at hmoney
  norm_num at hmoney

end EpaySettings

def wholeUnits (quotaPerUnit : ℚ) (amount : Int) : Int := truncate (decimalDiv amount quotaPerUnit)

/-- The number of tokens is a multiple of the unit, or its quotient is rounded up to a number of
units that is worth less than one token more. -/
def Convertible (quotaPerUnit : ℚ) (amount : Int) : Prop :=
  0 < amount ∧ Fits64 (wholeUnits quotaPerUnit amount) ∧
    ((∃ n : Int, (amount : ℚ) = n * quotaPerUnit) ∨
      ((amount : ℚ) < wholeUnits quotaPerUnit amount * quotaPerUnit ∧
        wholeUnits quotaPerUnit amount * quotaPerUnit < amount + 1))

section

variable {quotaPerUnit : ℚ} {amount : Int}

section

variable (hunit : 0 < quotaPerUnit)
include hunit

theorem wholeUnits_nonneg (hpos : 0 < amount) : 0 ≤ wholeUnits quotaPerUnit amount := by
  have hquotient : 0 ≤ (amount : ℚ) / quotaPerUnit := by positivity
  have hnonneg := decimalDiv_nonneg hquotient
  rw [wholeUnits, truncate_of_nonneg hnonneg]
  exact Int.floor_nonneg.mpr hnonneg

theorem wholeUnits_mul_le (hpos : 0 < amount) :
    (wholeUnits quotaPerUnit amount : ℚ) * quotaPerUnit ≤
      amount + quotaPerUnit / (2 * 10 ^ 16) := by
  have hquotient : 0 ≤ (amount : ℚ) / quotaPerUnit := by positivity
  have hround := (abs_le.mp (abs_decimalDiv_sub_le amount quotaPerUnit)).2
  have hfloor := Int.floor_le (decimalDiv amount quotaPerUnit)
  rw [wholeUnits, truncate_of_nonneg (decimalDiv_nonneg hquotient)]
  calc (⌊decimalDiv amount quotaPerUnit⌋ : ℚ) * quotaPerUnit
      ≤ (amount / quotaPerUnit + 1 / (2 * 10 ^ 16)) * quotaPerUnit := by
        apply mul_le_mul_of_nonneg_right _ hunit.le
        linarith
    _ = amount + quotaPerUnit / (2 * 10 ^ 16) := by
        field_simp

private theorem wholeUnits_mul_le_two_mul (hpos : 0 < amount) :
    (wholeUnits quotaPerUnit amount : ℚ) * quotaPerUnit ≤ 2 * amount := by
  have hle := wholeUnits_mul_le hunit hpos
  have hamount : (0 : ℚ) < amount := by exact_mod_cast hpos
  rcases (wholeUnits_nonneg hunit hpos).eq_or_lt with hzero | hone
  · rw [← hzero, Int.cast_zero, zero_mul]
    linarith
  · have hcast : (1 : ℚ) ≤ wholeUnits quotaPerUnit amount := by exact_mod_cast hone
    have hone : quotaPerUnit ≤ wholeUnits quotaPerUnit amount * quotaPerUnit := by
      nlinarith
    linarith

private theorem intPart_wholeUnits_iff (hpos : 0 < amount) (hfits : Fits64 amount) :
    intPart (wholeUnits quotaPerUnit amount * quotaPerUnit) = amount ↔
      ⌊(wholeUnits quotaPerUnit amount : ℚ) * quotaPerUnit⌋ = amount := by
  have hnonneg : (0 : ℚ) ≤ wholeUnits quotaPerUnit amount * quotaPerUnit := by
    have hunits : (0 : ℚ) ≤ wholeUnits quotaPerUnit amount := by
      exact_mod_cast wholeUnits_nonneg hunit hpos
    positivity
  have hlow := Int.floor_nonneg.mpr hnonneg
  have hhigh : ⌊(wholeUnits quotaPerUnit amount : ℚ) * quotaPerUnit⌋ ≤ 2 * amount := by
    have hle := (Int.floor_le _).trans (wholeUnits_mul_le_two_mul hunit hpos)
    exact_mod_cast hle
  rw [intPart, truncate_of_nonneg hnonneg]
  unfold Fits64 at hfits
  unfold wrap64
  omega

private theorem intPart_wrapped_ne (hpos : 0 < amount) (hfits : Fits64 amount)
    (hlarge : ¬ Fits64 (wholeUnits quotaPerUnit amount)) :
    intPart (wrap64 (wholeUnits quotaPerUnit amount) * quotaPerUnit) ≠ amount := by
  have hunits := wholeUnits_nonneg hunit hpos
  have hle := wholeUnits_mul_le hunit hpos
  have hover : (2 : ℚ) ^ 63 ≤ wholeUnits quotaPerUnit amount := by
    have hint : (2 : Int) ^ 63 ≤ wholeUnits quotaPerUnit amount := by
      unfold Fits64 at hlarge
      omega
    exact_mod_cast hint
  have hexact : (2 : ℚ) ^ 63 * quotaPerUnit ≤ amount + quotaPerUnit / (2 * 10 ^ 16) := by
    nlinarith
  have hamount : (amount : ℚ) + 1 ≤ 2 ^ 63 := by
    have hint : amount + 1 ≤ 2 ^ 63 := hfits.2
    exact_mod_cast hint
  have hsmall : quotaPerUnit ≤ 1 := by
    linarith
  obtain ⟨hlow, hhigh⟩ := fits64_wrap64 (wholeUnits quotaPerUnit amount)
  generalize wrap64 (wholeUnits quotaPerUnit amount) = kept at hlow hhigh ⊢
  have hlowCast : -(2 : ℚ) ^ 63 ≤ kept := by exact_mod_cast hlow
  have hhighCast : (kept : ℚ) + 1 ≤ 2 ^ 63 := by
    have hint : kept + 1 ≤ 2 ^ 63 := hhigh
    exact_mod_cast hint
  have hless : truncate (kept * quotaPerUnit) < amount := by
    apply truncate_lt hpos
    nlinarith
  have hmore : -2 ^ 63 ≤ truncate (kept * quotaPerUnit) := by
    apply le_truncate (by norm_num)
    push_cast
    nlinarith
  rw [intPart, wrap64_of_fits ⟨hmore, hless.trans hfits.2⟩]
  exact hless.ne

theorem intPart_intPart_iff (hpos : 0 < amount) (hfits : Fits64 amount) :
    intPart (intPart (decimalDiv amount quotaPerUnit) * quotaPerUnit) = amount ↔
      Convertible quotaPerUnit amount := by
  have hunits : intPart (decimalDiv amount quotaPerUnit) =
      wrap64 (wholeUnits quotaPerUnit amount) := rfl
  rw [hunits]
  by_cases hlarge : Fits64 (wholeUnits quotaPerUnit amount)
  · rw [wrap64_of_fits hlarge, intPart_wholeUnits_iff hunit hpos hfits, Int.floor_eq_iff]
    constructor
    · rintro ⟨hlow, hhigh⟩
      rcases hlow.eq_or_lt with heq | hlt
      · exact ⟨hpos, hlarge, .inl ⟨_, heq⟩⟩
      · exact ⟨hpos, hlarge, .inr ⟨hlt, hhigh⟩⟩
    · rintro ⟨-, -, ⟨n, hn⟩ | ⟨hlow, hhigh⟩⟩
      · have hunits : wholeUnits quotaPerUnit amount = n := by
          rw [wholeUnits, hn, decimalDiv_intCast_mul n hunit.ne', truncate_intCast]
        rw [hunits, ← hn]
        constructor
        · rfl
        · linarith
      · exact ⟨hlow.le, hhigh⟩
  · constructor
    · intro h
      exact absurd h (intPart_wrapped_ne hunit hpos hfits hlarge)
    · intro h
      exact absurd h.2.1 hlarge

end

end

theorem quota_epayNotify_iff {quotaPerUnit : ℚ} {t : TopUp} (hepay : t.paymentProvider = .epay)
    (hpending : t.status = .pending) (paidWith : String) (user : Payer) {amount : Int}
    (hamount : amount ≠ 0) :
    (epayNotify quotaPerUnit paidWith t user false false).user.quota = user.quota + amount ↔
      amountQuota quotaPerUnit t = amount ∧ 0 ≤ amount ∧ Fits64 (user.quota + amount) := by
  simp only [epayNotify, hepay, hpending, ne_eq, not_true_eq_false, if_false, Bool.false_eq_true,
    false_or]
  split
  · next hrefused =>
    constructor
    · intro h
      dsimp only at h
      omega
    · rintro ⟨hquota, hnonneg, hfits⟩
      rw [hquota] at hrefused
      rcases hrefused with hnegative | hover
      · omega
      · contradiction
  · next hadded =>
    rw [not_or, not_lt, not_not] at hadded
    constructor
    · intro h
      have hquota : amountQuota quotaPerUnit t = amount := by
        dsimp only at h
        omega
      rw [← hquota]
      exact ⟨rfl, hadded⟩
    · intro h
      rw [h.1]

open EpaySettings in
/--
With the display type `TOKENS`, the callback adds the number of tokens that was asked for and
priced exactly if this number is a multiple of `QuotaPerUnit`, apart from quotients that lie next
to a whole number, and the user's quota stays in range.
-/
theorem requestEpay_tokens_iff (settings : EpaySettings)
    (htokens : settings.quotaDisplayType = .tokens) (hunit : 0 < settings.quotaPerUnit)
    (context : RequestContext) (request : EpayRequest) (hamount : Fits64 request.amount)
    (order : TopUp) (hrequest : settings.requestEpay context (some request) = .ok order)
    (paidWith : String) (user : Payer) :
    (epayNotify settings.quotaPerUnit paidWith order user false false).user.quota =
        user.quota + request.amount ↔
      Convertible settings.quotaPerUnit request.amount ∧ Fits64 (user.quota + request.amount) := by
  have horder := orderOf_requestEpay hrequest
  have hquota : amountQuota settings.quotaPerUnit order =
      intPart (intPart (decimalDiv request.amount settings.quotaPerUnit) *
        settings.quotaPerUnit) := by
    rw [amountQuota, horder.amount, orderAmount, if_pos htokens]
  rw [quota_epayNotify_iff horder.provider horder.status _ _ horder.amount_ne_zero, hquota]
  constructor
  · rintro ⟨hback, hnonneg, hfits⟩
    have hpos : 0 < request.amount := lt_of_le_of_ne hnonneg horder.amount_ne_zero.symm
    exact ⟨(intPart_intPart_iff hunit hpos hamount).mp hback, hfits⟩
  · rintro ⟨hconvertible, hfits⟩
    have hback := (intPart_intPart_iff hunit hconvertible.1 hamount).mpr hconvertible
    exact ⟨hback, hconvertible.1.le, hfits⟩

def tokenSettings : EpaySettings where
  quotaDisplayType := .tokens
  quotaPerUnit := 500000
  price := 7.3
  minTopUp := 1
  topupGroupRatio := fun _ => none
  amountDiscount := fun _ => none
  payMethods := ["alipay"]
  client := true

def tokenContext : RequestContext where
  id := 7
  group := some "default"
  tradeNo := "USR7NO1"
  now := 10
  rowId := 1
  purchaseFault := false
  insertFault := false

def tokenOrder (amount : Int) (money : ℚ) : TopUp :=
  { id := 1, userId := 7, amount := amount, money := money, tradeNo := "USR7NO1",
    paymentMethod := "alipay", paymentProvider := .epay, createTime := 10, completeTime := 0,
    status := .pending }

theorem requestEpay_two_units :
    (epayNotify 500000 "alipay" (tokenOrder 2 14.6) emptyPayer false false).user.quota =
      emptyPayer.quota + 1000000 := by
  apply (requestEpay_tokens_iff tokenSettings rfl (by decide +kernel) tokenContext
    ⟨1000000, "alipay"⟩ (by decide) (tokenOrder 2 14.6) (by decide +kernel) "alipay"
    emptyPayer).mpr
  constructor
  · refine ⟨by decide, by decide +kernel, .inl ⟨2, ?_⟩⟩
    decide +kernel
  · decide

/-- 750000 tokens are priced as one and a half units and credited as one. -/
theorem requestEpay_broken_unit :
    tokenSettings.requestEpay tokenContext (some ⟨750000, "alipay"⟩) =
      .ok (tokenOrder 1 (1.5 * 7.3)) ∧
    tokenSettings.getPayMoney 750000 "default" = 1.5 * 7.3 ∧
    (epayNotify 500000 "alipay" (tokenOrder 1 (1.5 * 7.3)) emptyPayer false false).user.quota =
      500000 := by
  decide +kernel

end NewApi.Topup
