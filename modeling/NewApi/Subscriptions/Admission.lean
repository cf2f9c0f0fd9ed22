import NewApi.Subscriptions.Periods

/-!
# The reset loop of an admitted plan

`AdminCreateSubscriptionPlan` of `controller/subscription.go` accepts a custom
reset period of any positive number of seconds.  The loop multiplies it to
nanoseconds in 64 bits: the period may come out as zero or negative seconds.
-/

namespace NewApi.Subscriptions

open Foundation SubscriptionPlan

section

def ResetPeriod.text : ResetPeriod → String
  | .never => "never"
  | .daily => "daily"
  | .weekly => "weekly"
  | .monthly => "monthly"
  | .custom => "custom"

/-- The plan of a request with the two columns that only the request's checks read. -/
structure PlanRequest where
  title : String
  priceAmount : ℚ
  plan : SubscriptionPlan

structure PlanContext where
  complianceConfirmed : Bool
  groups : List String
  rowId : Int
  createFault : Bool

inductive PlanError where
  | complianceRequired
  | badRequest
  | emptyTitle
  | negativePrice
  | priceTooHigh
  | negativeLimit
  | negativeTotal
  | unknownGroup
  | customSecondsNotPositive
  | database
  deriving DecidableEq

def withDefaultDuration (plan : SubscriptionPlan) : SubscriptionPlan :=
  let durationUnit := if plan.durationUnit = .other "" then .month else plan.durationUnit
  { plan with
    durationUnit := durationUnit
    durationValue :=
      if plan.durationValue ≤ 0 ∧ durationUnit ≠ .custom then 1
      -- a zero is left to the default of the column
      else if plan.durationValue = 0 then 1
      else plan.durationValue }

/-- `AdminCreateSubscriptionPlan`, with the row that it stores; `none` is a body that cannot be
bound. -/
def adminCreateSubscriptionPlan (context : PlanContext) (body : Option PlanRequest) :
    Except PlanError SubscriptionPlan :=
  if context.complianceConfirmed = false then .error .complianceRequired
  else
    match body with
    | none => .error .badRequest
    | some req =>
      let upgradeGroup := trimSpace req.plan.upgradeGroup
      let period := normalizeResetPeriod req.plan.quotaResetPeriod
      if trimSpace req.title = "" then .error .emptyTitle
      else if req.priceAmount < 0 then .error .negativePrice
      else if 9999 < req.priceAmount then .error .priceTooHigh
      else if req.plan.maxPurchasePerUser < 0 then .error .negativeLimit
      else if req.plan.totalAmount < 0 then .error .negativeTotal
      else if upgradeGroup ≠ "" ∧ upgradeGroup ∉ context.groups then .error .unknownGroup
      else if period = .custom ∧ req.plan.quotaResetCustomSeconds ≤ 0 then
        .error .customSecondsNotPositive
      else if context.createFault = true then .error .database
      else
        .ok
          { withDefaultDuration req.plan with
            id := context.rowId
            upgradeGroup := upgradeGroup
            quotaResetPeriod := period.text }

private theorem normalizeResetPeriod_text (period : ResetPeriod) :
    normalizeResetPeriod period.text = period := by
  cases period <;> decide +kernel

variable {context : PlanContext} {body : Option PlanRequest}

section

variable {plan : SubscriptionPlan}

section

variable (h : adminCreateSubscriptionPlan context body = .ok plan)
include h

theorem admitted_cases :
    ∃ req : PlanRequest,
      ¬ (normalizeResetPeriod req.plan.quotaResetPeriod = .custom ∧
        req.plan.quotaResetCustomSeconds ≤ 0) ∧
      plan = { withDefaultDuration req.plan with
        id := context.rowId
        upgradeGroup := trimSpace req.plan.upgradeGroup
        quotaResetPeriod := (normalizeResetPeriod req.plan.quotaResetPeriod).text } := by
  unfold adminCreateSubscriptionPlan at h
  cases body with
  | none => cases (ite_error_eq_ok.mp h).2
  | some req =>
    dsimp only at h
    simp only [ite_error_eq_ok, Except.ok.injEq] at h
    obtain ⟨-, -, -, -, -, -, -, hperiod, -, rfl⟩ := h
    exact ⟨req, hperiod, rfl⟩

private theorem customSeconds_pos_of_admitted (hcustom : plan.resetPeriod = .custom) :
    0 < plan.quotaResetCustomSeconds := by
  rcases admitted_cases h with ⟨req, hperiod, rfl⟩
  rw [resetPeriod, normalizeResetPeriod_text] at hcustom
  by_contra hseconds
  exact hperiod ⟨hcustom, not_lt.mp hseconds⟩

private theorem durationValue_pos_of_admitted (hunit : plan.durationUnit ≠ .custom) :
    0 < plan.durationValue := by
  rcases admitted_cases h with ⟨req, -, rfl⟩
  dsimp only [withDefaultDuration] at hunit ⊢
  generalize (if req.plan.durationUnit = .other "" then .month
    else req.plan.durationUnit) = durationUnit at hunit ⊢
  split
  · exact one_pos
  next hvalue =>
  have hpos : 0 < req.plan.durationValue := by
    by_contra hle
    exact hvalue ⟨not_lt.mp hle, hunit⟩
  rw [if_neg hpos.ne']
  exact hpos

end

end

def SubscriptionPlan.Forward (plan : SubscriptionPlan) : Prop :=
  plan.resetPeriod = .custom → 0 < plan.customStep

instance (plan : SubscriptionPlan) : Decidable plan.Forward := by
  unfold SubscriptionPlan.Forward
  infer_instance

section

variable {zone endUnix base : Int} {plan : SubscriptionPlan}

theorem SubscriptionPlan.Forward.advances (hplan : plan.Forward) : plan.Advances := by
  intro hcustom _
  have hstep := hplan hcustom
  omega

theorem SubscriptionPlan.Forward.lt_resetAfter (hplan : plan.Forward)
    (h : 0 < plan.resetAfter zone endUnix base) : base < plan.resetAfter zone endUnix base := by
  rcases resetTarget_cases (calcNextResetTime_of_pos h) with ⟨-, hlater⟩ | ⟨hcustom, -, hstep⟩
  · exact hlater
  have hpos := hplan hcustom
  unfold resetAfter
  omega

def endlessRow (last : Int) : UserSubscription :=
  { id := 1, userId := 7, planId := 1, amountTotal := 100, amountUsed := 30, startTime := 1,
    endTime := 0, status := .active, source := "order", lastResetTime := last,
    nextResetTime := 1, upgradeGroup := "", prevUserGroup := "" }

theorem resetBase_endlessRow {last : Int} (hlast : 0 < last) :
    (endlessRow last).resetBase = last := if_neg (not_le.mpr hlast)

section

variable (hcustom : plan.resetPeriod = .custom) (hseconds : 0 < plan.quotaResetCustomSeconds)
include hcustom hseconds

theorem resetAfter_endless : plan.resetAfter zone 0 base = base + plan.customStep := by
  simp [resetAfter, calcNextResetTime, resetTarget, hcustom, not_le.mpr hseconds, customStep]

theorem firstReset_endlessRow {last : Int} (hlast : 0 < last) :
    (endlessRow last).firstReset zone plan = last + plan.customStep := by
  rw [UserSubscription.firstReset, resetBase_endlessRow hlast]
  exact resetAfter_endless hcustom hseconds

theorem resets_endlessRow {last : Int} (hlast : 0 < last)
    (hfirst : last + plan.customStep = 1) : (endlessRow last).Resets zone 1 plan := by
  constructor
  · rw [hcustom]
    decide
  · rw [firstReset_endlessRow hcustom hseconds hlast, hfirst]
    decide

private theorem not_resetsTo_of_zero_step (hstep : plan.customStep = 0) (saved : UserSubscription) :
    ¬ ResetsTo zone plan (endlessRow 1) 1 saved := by
  rintro ⟨fuel, hreturns⟩
  have hplan : ¬ plan.Advances := by
    intro hadvances
    exact hadvances hcustom hseconds hstep
  have hreset : (endlessRow 1).Resets zone 1 plan :=
    resets_endlessRow hcustom hseconds one_pos (by omega)
  have hhung := maybeReset_hung (by decide) hreset hplan fuel
  dsimp only at hreturns
  rw [hhung] at hreturns
  cases hreturns

private theorem resetsTo_of_negative_step (hstep : plan.customStep < 0) :
    ResetsTo zone plan (endlessRow (1 - plan.customStep)) 1
      ((endlessRow (1 - plan.customStep)).resetTo 1 (1 + plan.customStep)) := by
  have hlast : 0 < 1 - plan.customStep := by omega
  have hreset : (endlessRow (1 - plan.customStep)).Resets zone 1 plan :=
    resets_endlessRow hcustom hseconds hlast (by omega)
  have hwalk : Walk (plan.resetAfter zone 0) 1 (1 - plan.customStep) 1 1 (1 + plan.customStep) := by
    apply Walk.step ⟨one_pos, le_rfl⟩
    rw [resetAfter_endless hcustom hseconds]
    apply Walk.stop
    rintro ⟨hpos, -⟩
    omega
  apply resetsTo_due
  · rintro ⟨-, hlater⟩
    exact lt_irrefl _ hlater
  · exact hreset.2
  · rw [UserSubscription.WalksTo, firstReset_endlessRow hcustom hseconds hlast,
      resetBase_endlessRow hlast, sub_add_cancel]
    exact hwalk

end

end

/--
For an admitted plan, the loop ends for every row and time and does not move a reset back, if and
only if a custom period is a positive number of seconds after its multiplication in 64 bits.
-/
theorem admitted_plan_resets_iff (context : PlanContext) (body : Option PlanRequest)
    (plan : SubscriptionPlan) (h : adminCreateSubscriptionPlan context body = .ok plan) :
    (∀ (zone : Int) (sub : UserSubscription) (now : Int),
      ∃ saved, ResetsTo zone plan sub now saved ∧
        (sub.Resets zone now plan → sub.lastResetTime ≤ saved.lastResetTime)) ↔
      plan.Forward := by
  constructor
  · intro hall hcustom
    have hseconds := customSeconds_pos_of_admitted h hcustom
    rcases lt_trichotomy plan.customStep 0 with hneg | hzero | hpos
    · -- the row goes back from `1 - step` to 1
      obtain ⟨saved, hsaved, hlast⟩ := hall 0 (endlessRow (1 - plan.customStep)) 1
      obtain rfl := hsaved.unique (resetsTo_of_negative_step hcustom hseconds hneg)
      have hback : 1 - plan.customStep ≤ 1 :=
        hlast (resets_endlessRow hcustom hseconds (by omega) (by omega))
      omega
    · obtain ⟨saved, hsaved, -⟩ := hall 0 (endlessRow 1) 1
      exact absurd hsaved (not_resetsTo_of_zero_step hcustom hseconds hzero saved)
    · exact hpos
  · intro hplan zone sub now
    obtain ⟨saved, hsaved⟩ := exists_resetsTo hplan.advances zone sub now
    refine ⟨saved, hsaved, ?_⟩
    intro hreset
    rcases hsaved.cases hplan.advances with
      ⟨-, rfl⟩ | ⟨-, hdue, base, next, hwalk, rfl⟩ | ⟨-, hdue, -⟩
    · rfl
    · have hbase : sub.resetBase ≤ base :=
        hwalk.base_le (fun b hpos => hplan.lt_resetAfter hpos) rfl
      have hpos := hwalk.base_pos (.inr hdue)
      have hlast : (sub.resetTo base next).lastResetTime = base := rfl
      rw [hlast]
      unfold UserSubscription.resetBase at hbase
      split at hbase
      · omega
      · exact hbase
    · exact absurd hreset.2 hdue

def customPlan (seconds : Int) : SubscriptionPlan :=
  { dailyPlan with quotaResetPeriod := "custom", quotaResetCustomSeconds := seconds }

def customRequest (seconds : Int) : PlanRequest :=
  { title := "Pro", priceAmount := 10, plan := customPlan seconds }

def openContext : PlanContext :=
  { complianceConfirmed := true, groups := [], rowId := 1, createFault := false }

theorem admitted_plan_resets_hourly :
    adminCreateSubscriptionPlan openContext (some (customRequest 3600)) = .ok (customPlan 3600) ∧
    ∀ (zone : Int) (sub : UserSubscription) (now : Int),
      ∃ saved, ResetsTo zone (customPlan 3600) sub now saved ∧
        (sub.Resets zone now (customPlan 3600) → sub.lastResetTime ≤ saved.lastResetTime) := by
  have hadmitted : adminCreateSubscriptionPlan openContext (some (customRequest 3600)) =
      .ok (customPlan 3600) := by
    decide +kernel
  constructor
  · exact hadmitted
  · apply (admitted_plan_resets_iff openContext _ _ hadmitted).mpr
    decide +kernel

/-- `2 ^ 55` seconds are zero nanoseconds, and the loop does not end; one second less is one
second back, and the last reset goes from 3 to 1. -/
theorem admitted_plan_resets_counterexample :
    (adminCreateSubscriptionPlan openContext (some (customRequest (2 ^ 55))) =
        .ok (customPlan (2 ^ 55)) ∧
      ∀ fuel, maybeResetUserSubscriptionWithPlanTx 0 fuel (endlessRow 1) (customPlan (2 ^ 55)) 1 =
        none) ∧
    adminCreateSubscriptionPlan openContext (some (customRequest (2 ^ 55 - 1))) =
      .ok (customPlan (2 ^ 55 - 1)) ∧
    maybeResetUserSubscriptionWithPlanTx 0 4 (endlessRow 3) (customPlan (2 ^ 55 - 1)) 3 =
      some ((endlessRow 3).resetTo 1 0) := by
  constructor
  · constructor
    · decide +kernel
    · intro fuel
      apply maybeReset_hung
      · decide
      · decide +kernel
      · decide +kernel
  · decide +kernel

end

/-!
## The end of a purchased plan

`calcPlanEndTime` adds years and months in the calendar, and days, hours and
custom seconds as a `time.Duration`.  A duration is a 64-bit number of
nanoseconds, and the admission bounds neither `duration_value` nor
`custom_seconds`: the end may come before the start.
-/

/-- The seconds of a duration, as nanoseconds, fall into the lower half of a lap of the 64 bits
and are at least one second past its start. -/
def LaterBy (seconds : Int) : Prop :=
  ∃ laps : Nat, laps * 2 ^ 64 + nanosPerSecond ≤ seconds * nanosPerSecond ∧
    seconds * nanosPerSecond < laps * 2 ^ 64 + 2 ^ 63

/-- The seconds between the first days of two months. -/
def monthSeconds (zone start months : Int) : Int :=
  let month := monthOf (dayOf zone start)
  (monthStart (month + months) - monthStart month) * secondsPerDay

/-- The months reach past the start of a lap and not past the last time that follows. -/
def LaterDate (zone start months : Int) : Prop :=
  ∃ laps : Nat, laps * 2 ^ 64 < monthSeconds zone start months ∧
    start + monthSeconds zone start months < laps * 2 ^ 64 + 2 ^ 63

def SubscriptionPlan.EndsLater (zone start : Int) (plan : SubscriptionPlan) : Prop :=
  match plan.durationUnit with
  | .year => LaterDate zone start (12 * plan.durationValue)
  | .month => LaterDate zone start plan.durationValue
  | .day => LaterBy (plan.durationValue * 86400)
  | .hour => LaterBy (plan.durationValue * 3600)
  | .custom => 0 < plan.customSeconds → LaterBy plan.customSeconds
  | .other _ => True

theorem durationSeconds_pos_iff {n unitSeconds : Int} (h : 0 < n * unitSeconds) :
    0 < durationSeconds n unitSeconds ↔ LaterBy (n * unitSeconds) := by
  have hnanos : 0 < n * unitSeconds * nanosPerSecond := Int.mul_pos h (by decide)
  unfold durationSeconds LaterBy wrap64
  rw [← mul_assoc]
  generalize n * unitSeconds * nanosPerSecond = nanos at *
  unfold nanosPerSecond
  constructor
  · intro hpos
    exact ⟨(nanos / 2 ^ 64).toNat, by omega, by omega⟩
  · rintro ⟨laps, hlow, hhigh⟩
    omega

private theorem addMonths_eq (zone start months : Int) :
    addMonths zone start months = start + monthSeconds zone start months := by
  unfold addMonths monthSeconds midnight
  dsimp only
  ring

private theorem monthSeconds_pos (zone start : Int) {months : Int} (h : 0 < months) :
    0 < monthSeconds zone start months := by
  have hlater : monthStart (monthOf (dayOf zone start)) <
      monthStart (monthOf (dayOf zone start) + months) := monthStart_lt_iff.mpr (by omega)
  unfold monthSeconds secondsPerDay
  dsimp only
  omega

private theorem lt_addMonths_iff {zone months : Int} (start : Int64) (h : 0 < months) :
    start.toInt < wrap64 (addMonths zone start.toInt months) ↔
      LaterDate zone start.toInt months := by
  have hpos := monthSeconds_pos zone start.toInt h
  have hlow := start.le_toInt
  have hhigh := start.toInt_lt
  rw [addMonths_eq, LaterDate]
  generalize monthSeconds zone start.toInt months = seconds at *
  unfold wrap64
  constructor
  · intro hlater
    exact ⟨(seconds / 2 ^ 64).toNat, by omega, by omega⟩
  · rintro ⟨laps, hseconds, hlast⟩
    omega

/--
The end of an admitted plan is an error or lies after the purchase, if and only if its duration
lies in one of these ranges.
-/
theorem purchased_plan_ends_later_iff (context : PlanContext) (body : Option PlanRequest)
    (plan : SubscriptionPlan) (h : adminCreateSubscriptionPlan context body = .ok plan)
    (zone : Int) (start : Int64) :
    (∀ endUnix, calcPlanEndTime zone start.toInt plan = .ok endUnix → start.toInt < endUnix) ↔
      plan.EndsLater zone start.toInt := by
  have hvalue : plan.durationUnit ≠ .custom → 0 < plan.durationValue :=
    durationValue_pos_of_admitted h
  have hchecked : ¬ (plan.durationValue ≤ 0 ∧ plan.durationUnit ≠ .custom) := by
    rintro ⟨hle, hunit⟩
    exact absurd (hvalue hunit) (not_lt.mpr hle)
  unfold calcPlanEndTime SubscriptionPlan.EndsLater
  rw [if_neg hchecked]
  cases hunit : plan.durationUnit with
  | year | month =>
    have hpos := hvalue (by simp [hunit])
    simp [lt_addMonths_iff start, hpos]
  | day | hour =>
    have hpos := hvalue (by simp [hunit])
    simp [durationSeconds_pos_iff, hpos]
  | custom =>
    by_cases hseconds : plan.customSeconds ≤ 0
    · simp [hseconds]
    · simp [hseconds, not_le.mp hseconds, durationSeconds_pos_iff]
  | other => simp

def requestOf (plan : SubscriptionPlan) : PlanRequest := { title := "Pro", priceAmount := 10, plan }

def monthPlan : SubscriptionPlan := { dailyPlan with durationUnit := .month, durationValue := 12 }

theorem purchased_plan_ends_later_months :
    adminCreateSubscriptionPlan openContext (some (requestOf monthPlan)) = .ok monthPlan ∧
    calcPlanEndTime 0 1700000000 monthPlan = .ok 1731622400 ∧
    ∀ endUnix, calcPlanEndTime 0 1700000000 monthPlan = .ok endUnix → 1700000000 < endUnix := by
  have hadmitted : adminCreateSubscriptionPlan openContext (some (requestOf monthPlan)) =
      .ok monthPlan := by
    decide +kernel
  refine ⟨hadmitted, by decide +kernel, ?_⟩
  apply (purchased_plan_ends_later_iff openContext _ _ hadmitted 0 1700000000).mpr
  exact ⟨0, by decide +kernel, by decide +kernel⟩

/-- 110000 days are 301 years, and end before they start. -/
theorem purchased_plan_ends_later_counterexample :
    adminCreateSubscriptionPlan openContext
        (some (requestOf { dailyPlan with durationValue := 110000 })) =
      .ok { dailyPlan with durationValue := 110000 } ∧
    calcPlanEndTime 0 1700000000 { dailyPlan with durationValue := 110000 } =
      .ok (-7242744074) := by
  decide +kernel

end NewApi.Subscriptions
