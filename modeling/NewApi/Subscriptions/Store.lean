import NewApi.Foundation.GoString
import NewApi.Foundation.GoTime
import NewApi.Foundation.Table

/-!
# Subscription plans

The time functions of `model/subscription.go`: when a purchased plan ends and
when its quota is reset next.  The parameter `zone` is the offset of local
time from UTC.
-/

namespace NewApi.Subscriptions

open Foundation

section

inductive DurationUnit where
  | year
  | month
  | day
  | hour
  | custom
  | other (raw : String)
  deriving DecidableEq

inductive ResetPeriod where
  | never
  | daily
  | weekly
  | monthly
  | custom
  deriving DecidableEq

structure SubscriptionPlan where
  id : Int
  durationUnit : DurationUnit
  durationValue : Int
  customSeconds : Int
  maxPurchasePerUser : Int
  upgradeGroup : String
  totalAmount : Int
  quotaResetPeriod : String
  quotaResetCustomSeconds : Int
  deriving DecidableEq

def calcPlanEndTime (zone start : Int) (plan : SubscriptionPlan) : Except String Int :=
  if plan.durationValue ≤ 0 ∧ plan.durationUnit ≠ .custom then
    .error "duration_value must be > 0"
  else
    match plan.durationUnit with
    | .year => .ok (wrap64 (addMonths zone start (12 * plan.durationValue)))
    | .month => .ok (wrap64 (addMonths zone start plan.durationValue))
    | .day => .ok (start + durationSeconds plan.durationValue 86400)
    | .hour => .ok (start + durationSeconds plan.durationValue 3600)
    | .custom =>
      if plan.customSeconds ≤ 0 then .error "custom_seconds must be > 0"
      else .ok (start + durationSeconds plan.customSeconds 1)
    | .other raw => .error ("invalid duration_unit: " ++ raw)

def normalizeResetPeriod (period : String) : ResetPeriod :=
  match trimSpace period with
  | "daily" => .daily
  | "weekly" => .weekly
  | "monthly" => .monthly
  | "custom" => .custom
  | _ => .never

section

variable (plan : SubscriptionPlan)

def SubscriptionPlan.resetPeriod : ResetPeriod := normalizeResetPeriod plan.quotaResetPeriod

def daysUntilMonday (day : Int) : Int := 8 - (if weekday day = 0 then 7 else weekday day)

def resetTarget (zone base : Int) (plan : SubscriptionPlan) : Option Int :=
  let day := dayOf zone base
  match plan.resetPeriod with
  | .never => none
  | .daily => some (midnight zone (day + 1))
  | .weekly => some (midnight zone (day + daysUntilMonday day))
  | .monthly => some (midnight zone (monthStart (monthOf day + 1)))
  | .custom =>
    if plan.quotaResetCustomSeconds ≤ 0 then none
    else some (base + durationSeconds plan.quotaResetCustomSeconds 1)

def calcNextResetTime (zone base : Int) (plan : SubscriptionPlan) (endUnix : Int) : Int :=
  match resetTarget zone base plan with
  | none => 0
  | some next => if 0 < endUnix ∧ endUnix < next then 0 else next

/-- Seconds by which a custom reset period moves the reset time: the number of
nanoseconds is a 64-bit integer. -/
def SubscriptionPlan.customStep : Int := durationSeconds plan.quotaResetCustomSeconds 1

/-- The period moves the reset time at all; only a custom one may fail to. -/
def SubscriptionPlan.Advances : Prop :=
  plan.resetPeriod = .custom → 0 < plan.quotaResetCustomSeconds → plan.customStep ≠ 0

end

instance (plan : SubscriptionPlan) : Decidable plan.Advances := by
  unfold SubscriptionPlan.Advances
  infer_instance

theorem daysUntilMonday_pos (day : Int) : 0 < daysUntilMonday day := by
  unfold daysUntilMonday weekday
  split <;> omega

variable {zone base next : Int} {plan : SubscriptionPlan}

theorem resetTarget_cases (h : resetTarget zone base plan = some next) :
    plan.resetPeriod ≠ .custom ∧ base < next ∨
      plan.resetPeriod = .custom ∧ 0 < plan.quotaResetCustomSeconds ∧
        next = base + plan.customStep := by
  unfold resetTarget at h
  cases hperiod : plan.resetPeriod <;> simp only [hperiod] at h
  case never => cases h
  case daily | weekly =>
    have hpos := daysUntilMonday_pos (dayOf zone base)
    refine .inl ⟨by decide, ?_⟩
    rw [← Option.some.inj h]
    exact lt_midnight_iff.mpr (by omega)
  case monthly =>
    refine .inl ⟨by decide, ?_⟩
    rw [← Option.some.inj h]
    exact lt_midnight_iff.mpr (monthOf_contains _).2
  case custom =>
    split at h
    · cases h
    · refine .inr ⟨rfl, by omega, ?_⟩
      exact (Option.some.inj h).symm

theorem calcNextResetTime_of_none (h : resetTarget zone base plan = none) (endUnix : Int) :
    calcNextResetTime zone base plan endUnix = 0 := by
  rw [calcNextResetTime, h]

theorem calcNextResetTime_of_some (h : resetTarget zone base plan = some next) (endUnix : Int) :
    calcNextResetTime zone base plan endUnix =
      if 0 < endUnix ∧ endUnix < next then 0 else next := by
  rw [calcNextResetTime, h]

theorem calcNextResetTime_of_pos {endUnix : Int}
    (h : 0 < calcNextResetTime zone base plan endUnix) :
    resetTarget zone base plan = some (calcNextResetTime zone base plan endUnix) := by
  cases htarget : resetTarget zone base plan with
  | none =>
    rw [calcNextResetTime_of_none htarget] at h
    exact absurd h (lt_irrefl 0)
  | some next =>
    rw [calcNextResetTime_of_some htarget] at h ⊢
    split at h
    · exact absurd h (lt_irrefl 0)
    · next hcut => rw [if_neg hcut]

end

/-!
## The subscription ledger

Rows of `user_subscriptions` and `subscription_pre_consume_records` and the
transactions that move `amount_used`.  A transaction that fails has no effect;
`RefundSubscriptionPreConsume` is two transactions, and is modelled as such.
-/

inductive SubscriptionStatus where
  | active
  | expired
  | cancelled
  deriving DecidableEq

structure UserSubscription where
  id : Int
  userId : Int
  planId : Int
  amountTotal : Int
  amountUsed : Int
  startTime : Int
  endTime : Int
  status : SubscriptionStatus
  source : String
  lastResetTime : Int
  nextResetTime : Int
  upgradeGroup : String
  prevUserGroup : String
  deriving DecidableEq

inductive RecordStatus where
  | consumed
  | refunded
  deriving DecidableEq

structure PreConsumeRecord where
  userId : Int
  userSubscriptionId : Int
  preConsumed : Int
  status : RecordStatus
  deriving DecidableEq

abbrev SubscriptionTable := Table UserSubscription UserSubscription.id

structure SubscriptionDB where
  subs : SubscriptionTable
  records : String → Option PreConsumeRecord
  plans : Int → Option SubscriptionPlan
  groups : Int → String

section

variable (db : SubscriptionDB)

def SubscriptionDB.getSubscriptionPlanById (id : Int) : Option SubscriptionPlan :=
  if id ≤ 0 then none else db.plans id

inductive SubscriptionError where
  | invalidUserId
  | invalidUserSubscriptionId
  | emptyRequestId
  | amountNotPositive
  | noActiveSubscription
  | quotaInsufficient (need : Int)
  | usedExceedsTotal (used total : Int)
  | alreadyRefunded
  | database

def SubscriptionError.message : SubscriptionError → String
  | .invalidUserId => "invalid userId"
  | .invalidUserSubscriptionId => "invalid userSubscriptionId"
  | .emptyRequestId => "requestId is empty"
  | .amountNotPositive => "amount must be > 0"
  | .noActiveSubscription => "no active subscription"
  | .quotaInsufficient need => "subscription quota insufficient, need=" ++ toString need
  | .usedExceedsTotal used total =>
    "subscription used exceeds total, used=" ++ toString used ++ " total=" ++ toString total
  | .alreadyRefunded => "subscription pre-consume already refunded"
  | .database => "database error"

/-- The `for` loop of `maybeResetUserSubscriptionWithPlanTx`; `none` if the fuel
does not suffice. -/
def resetLoop (zone : Int) (plan : SubscriptionPlan) (endUnix now : Int) :
    Nat → Int → Int → Bool → Option (Int × Int × Bool)
  | 0, _, _, _ => none
  | fuel + 1, base, next, advanced =>
    if 0 < next ∧ next ≤ now then
      resetLoop zone plan endUnix now fuel next (calcNextResetTime zone next plan endUnix) true
    else some (base, next, advanced)

section

variable (sub : UserSubscription)

def UserSubscription.resetBase : Int :=
  if sub.lastResetTime ≤ 0 then sub.startTime else sub.lastResetTime

/-- The row as it stands after the call; `none` if the loop needs more fuel. -/
def maybeResetUserSubscriptionWithPlanTx (zone : Int) (fuel : Nat)
    (sub : UserSubscription) (plan : SubscriptionPlan) (now : Int) : Option UserSubscription :=
  if 0 < sub.nextResetTime ∧ now < sub.nextResetTime then some sub
  else if plan.resetPeriod = .never then some sub
  else
    match resetLoop zone plan sub.endTime now fuel sub.resetBase
        (calcNextResetTime zone sub.resetBase plan sub.endTime) false with
    | none => none
    | some (base, next, advanced) =>
      if advanced = false then
        if sub.nextResetTime = 0 ∧ 0 < next then
          some { sub with nextResetTime := next, lastResetTime := base }
        else some sub
      else
        some { sub with amountUsed := 0, lastResetTime := base, nextResetTime := next }

/-- The loop body of `PreConsumeUserSubscription`: `none` if the row cannot pay. -/
def UserSubscription.preConsume (amount : Int) : Option UserSubscription :=
  if 0 < sub.amountTotal ∧ sub.amountTotal - sub.amountUsed < amount then none
  else some { sub with amountUsed := sub.amountUsed + amount }

def UserSubscription.usedAfter (delta : Int) : Int :=
  if sub.amountUsed + delta < 0 then 0 else sub.amountUsed + delta

def UserSubscription.postConsume (delta : Int) : Option UserSubscription :=
  if 0 < sub.amountTotal ∧ sub.amountTotal < sub.usedAfter delta then none
  else some { sub with amountUsed := sub.usedAfter delta }

end

structure PreConsumeResult where
  userSubscriptionId : Int
  preConsumed : Int
  amountTotal : Int
  amountUsedBefore : Int
  amountUsedAfter : Int

def SubscriptionDB.activeSubs (userId now : Int) : List UserSubscription :=
  db.subs.rows.filter fun sub =>
    decide (sub.userId = userId) && decide (sub.status = .active) && decide (now < sub.endTime)

def endTimeOrder (a b : UserSubscription) : Prop :=
  a.endTime < b.endTime ∨ a.endTime = b.endTime ∧ a.id ≤ b.id

instance : DecidableRel endTimeOrder := fun a b => by
  unfold endTimeOrder
  infer_instance

instance : Std.Total endTimeOrder where
  total a b := by
    unfold endTimeOrder
    omega

instance : IsTrans UserSubscription endTimeOrder where
  trans a b c := by
    unfold endTimeOrder
    omega

/-- The loop over the candidates.  Resets of earlier candidates are kept only if
the transaction commits. -/
def preConsumeFirst (zone : Int) (fuel : Nat) (now : Int) (requestId : String)
    (userId amount : Int) :
    List UserSubscription → SubscriptionDB →
      Option (Except SubscriptionError (PreConsumeResult × SubscriptionDB))
  | [], _ => some (.error (.quotaInsufficient amount))
  | candidate :: rest, db =>
    match db.getSubscriptionPlanById candidate.planId with
    | none => some (.error .database)
    | some plan =>
      match maybeResetUserSubscriptionWithPlanTx zone fuel candidate plan now with
      | none => none
      | some sub =>
        match sub.preConsume amount with
        | none =>
          preConsumeFirst zone fuel now requestId userId amount rest
            { db with subs := db.subs.save sub }
        | some consumed =>
          some (.ok
            ({ userSubscriptionId := sub.id
               preConsumed := amount
               amountTotal := sub.amountTotal
               amountUsedBefore := sub.amountUsed
               amountUsedAfter := consumed.amountUsed },
              { db with
                subs := db.subs.save consumed
                records := Function.update db.records requestId (some
                  { userId := userId
                    userSubscriptionId := sub.id
                    preConsumed := amount
                    status := .consumed }) }))

/-- A failed listing of the candidates is reported as if there were none. -/
inductive PreConsumeFault where
  | none
  | listing
  | other
  deriving DecidableEq

def preConsumeUserSubscription (zone : Int) (fuel : Nat) (db : SubscriptionDB) (now : Int)
    (requestId : String) (userId amount : Int) (fault : PreConsumeFault) :
    Option (Except SubscriptionError (PreConsumeResult × SubscriptionDB)) :=
  if userId ≤ 0 then some (.error .invalidUserId)
  else if trimSpace requestId = "" then some (.error .emptyRequestId)
  else if amount ≤ 0 then some (.error .amountNotPositive)
  else if fault = .other then some (.error .database)
  else
    match db.records requestId with
    | some existing =>
      if existing.status = .refunded then some (.error .alreadyRefunded)
      else
        match db.subs.get existing.userSubscriptionId with
        | none => some (.error .database)
        | some sub =>
          some (.ok
            ({ userSubscriptionId := sub.id
               preConsumed := existing.preConsumed
               amountTotal := sub.amountTotal
               amountUsedBefore := sub.amountUsed
               amountUsedAfter := sub.amountUsed }, db))
    | none =>
      if fault = .listing then some (.error .noActiveSubscription)
      else match (db.activeSubs userId now).insertionSort endTimeOrder with
      | [] => some (.error .noActiveSubscription)
      | subs => preConsumeFirst zone fuel now requestId userId amount subs db

def postConsumeUserSubscriptionDelta (userSubscriptionId delta : Int) (fault : Bool) :
    Except SubscriptionError SubscriptionDB :=
  if userSubscriptionId ≤ 0 then .error .invalidUserSubscriptionId
  else if delta = 0 then .ok db
  else if fault then .error .database
  else
    match db.subs.get userSubscriptionId with
    | none => .error .database
    | some sub =>
      match sub.postConsume delta with
      | none => .error (.usedExceedsTotal (sub.usedAfter delta) sub.amountTotal)
      | some saved => .ok { db with subs := db.subs.save saved }

def SubscriptionDB.markRefunded (requestId : String) (record : PreConsumeRecord) : SubscriptionDB :=
  { db with
    records := Function.update db.records requestId (some { record with status := .refunded }) }

structure RefundFaults where
  findRecord : Bool
  postConsume : Bool
  saveRecord : Bool

/--
The balance is changed by a transaction of its own, which is committed when the
record is marked: if marking it fails, only the mark is rolled back.
-/
def refundSubscriptionPreConsume (requestId : String) (faults : RefundFaults) :
    SubscriptionDB × Option SubscriptionError :=
  if trimSpace requestId = "" then (db, some .emptyRequestId)
  else if faults.findRecord then (db, some .database)
  else
    match db.records requestId with
    | none => (db, some .database)
    | some record =>
      if record.status = .refunded then (db, none)
      else if record.preConsumed ≤ 0 then
        if faults.saveRecord then (db, some .database)
        else (db.markRefunded requestId record, none)
      else
        match postConsumeUserSubscriptionDelta db record.userSubscriptionId
            (-record.preConsumed) faults.postConsume with
        | .error err => (db, some err)
        | .ok refunded =>
          if faults.saveRecord then (refunded, some .database)
          else (refunded.markRefunded requestId record, none)

end

def refundWithRetry (fn : SubscriptionDB → RefundFaults → SubscriptionDB × Option SubscriptionError)
    (db : SubscriptionDB) (first second third : RefundFaults) :
    SubscriptionDB × Option SubscriptionError :=
  match fn db first with
  | (db, none) => (db, none)
  | (db, some _) =>
    match fn db second with
    | (db, none) => (db, none)
    | (db, some _) => fn db third

end NewApi.Subscriptions
