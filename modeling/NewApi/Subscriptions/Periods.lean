import NewApi.Foundation.Decimal
import NewApi.Subscriptions.Lifecycle
import NewApi.Subscriptions.Reset

/-!
# Boundaries of the reset periods

The reset times of a plan are the boundaries of its periods: local midnights,
Mondays, first days of months, or multiples of a number of seconds after the
base.  `calcNextResetTime` gives the first boundary after its base, unless that
lies after the end of the subscription.
-/

namespace NewApi.Subscriptions

open Foundation

def ResetPeriod.Opens : ResetPeriod → Int → Prop
  | .daily, _ => True
  | .weekly, day => weekday day = 1
  | .monthly, day => ∃ month, day = monthStart month
  | _, _ => False

/-- The times at which a period of the plan ends; custom periods are counted from `base`. -/
inductive SubscriptionPlan.Boundary (plan : SubscriptionPlan) (zone base : Int) : Int → Prop
  | calendar (day : Int) (hopens : plan.resetPeriod.Opens day) :
      Boundary plan zone base (midnight zone day)
  | custom (hcustom : plan.resetPeriod = .custom) (k : Int) :
      Boundary plan zone base (base + k * plan.quotaResetCustomSeconds)

def SubscriptionPlan.Timely (plan : SubscriptionPlan) : Prop :=
  plan.resetPeriod = .custom →
    0 < plan.quotaResetCustomSeconds ∧ Fits64 (plan.quotaResetCustomSeconds * nanosPerSecond)

instance (plan : SubscriptionPlan) : Decidable plan.Timely := by
  unfold SubscriptionPlan.Timely
  infer_instance

section Boundaries

variable {zone base next endUnix now : Int} {plan : SubscriptionPlan}

theorem SubscriptionPlan.Timely.customStep (hplan : plan.Timely)
    (hcustom : plan.resetPeriod = .custom) : plan.customStep = plan.quotaResetCustomSeconds := by
  have hfits := (hplan hcustom).2
  rw [SubscriptionPlan.customStep, durationSeconds, one_mul, wrap64_of_fits hfits]
  unfold nanosPerSecond
  omega

theorem SubscriptionPlan.Timely.advances (hplan : plan.Timely) : plan.Advances := by
  intro hcustom hpos
  rw [hplan.customStep hcustom]
  omega

theorem isLeast_midnight {period : ResetPeriod} (hperiod : plan.resetPeriod = period)
    (hcalendar : period ≠ .custom) {day : Int}
    (h : IsLeast {d | period.Opens d ∧ dayOf zone base < d} day) :
    IsLeast {t | plan.Boundary zone base t ∧ base < t} (midnight zone day) := by
  constructor
  · refine ⟨?_, lt_midnight_iff.mpr h.1.2⟩
    apply SubscriptionPlan.Boundary.calendar
    rw [hperiod]
    exact h.1.1
  · rintro t ⟨hboundary, hlater⟩
    cases hboundary with
    | calendar d hopens =>
      rw [hperiod] at hopens
      apply midnight_le_midnight
      exact h.2 ⟨hopens, lt_midnight_iff.mp hlater⟩
    | custom hcustom => exact absurd (hperiod.symm.trans hcustom) hcalendar

private theorem isLeast_tomorrow (day : Int) :
    IsLeast {d | ResetPeriod.daily.Opens d ∧ day < d} (day + 1) := by
  constructor
  · exact ⟨trivial, Int.lt_succ day⟩
  · rintro d ⟨-, hlater⟩
    exact hlater

private theorem isLeast_monday (day : Int) :
    IsLeast {d | ResetPeriod.weekly.Opens d ∧ day < d} (day + daysUntilMonday day) := by
  constructor
  · have hmonday : weekday (day + daysUntilMonday day) = 1 := by
      unfold daysUntilMonday weekday
      split <;> omega
    have hpos := daysUntilMonday_pos day
    exact ⟨hmonday, by omega⟩
  · rintro d ⟨hopens, hlater⟩
    have hmonday : (d + 4) % 7 = 1 := hopens
    unfold daysUntilMonday weekday
    split <;> omega

private theorem isLeast_firstOfMonth (day : Int) :
    IsLeast {d | ResetPeriod.monthly.Opens d ∧ day < d} (monthStart (monthOf day + 1)) := by
  obtain ⟨hstart, hend⟩ := monthOf_contains day
  constructor
  · exact ⟨⟨monthOf day + 1, rfl⟩, hend⟩
  · rintro d ⟨⟨month, rfl⟩, hlater⟩
    have hmonth := monthStart_lt_iff.mp (hstart.trans_lt hlater)
    rw [← not_lt, monthStart_lt_iff]
    omega

private theorem isLeast_customStep (hplan : plan.Timely) (hcustom : plan.resetPeriod = .custom) :
    IsLeast {t | plan.Boundary zone base t ∧ base < t} (base + plan.customStep) := by
  have hpos := (hplan hcustom).1
  rw [hplan.customStep hcustom]
  constructor
  · have hfirst : plan.Boundary zone base (base + 1 * plan.quotaResetCustomSeconds) :=
      .custom hcustom 1
    rw [one_mul] at hfirst
    exact ⟨hfirst, by omega⟩
  · rintro t ⟨hboundary, hlater⟩
    cases hboundary with
    | calendar d hopens =>
      rw [hcustom] at hopens
      exact hopens.elim
    | custom _ k =>
      have hk : 1 ≤ k := by
        by_contra hnot
        nlinarith
      nlinarith

theorem isLeast_resetTarget (hplan : plan.Timely) (h : resetTarget zone base plan = some next) :
    IsLeast {t | plan.Boundary zone base t ∧ base < t} next := by
  have hcustom := h
  unfold resetTarget at h
  cases hperiod : plan.resetPeriod with rw [hperiod] at h
  | never => cases h
  | daily =>
    obtain rfl := Option.some.inj h
    exact isLeast_midnight hperiod (by decide) (isLeast_tomorrow _)
  | weekly =>
    obtain rfl := Option.some.inj h
    exact isLeast_midnight hperiod (by decide) (isLeast_monday _)
  | monthly =>
    obtain rfl := Option.some.inj h
    exact isLeast_midnight hperiod (by decide) (isLeast_firstOfMonth _)
  | custom =>
    rcases resetTarget_cases hcustom with ⟨hcalendar, -⟩ | ⟨-, -, hstep⟩
    · exact absurd hperiod hcalendar
    · rw [hstep]
      exact isLeast_customStep hplan hperiod

private theorem no_boundary_of_resetTarget (hplan : plan.Timely)
    (h : resetTarget zone base plan = none) (t : Int) : ¬ plan.Boundary zone base t := by
  intro hboundary
  cases hboundary with
  | calendar day hopens =>
    cases hperiod : plan.resetPeriod with
    | never | custom =>
      rw [hperiod] at hopens
      exact hopens.elim
    | _ =>
      simp only [resetTarget, hperiod] at h
      cases h
  | custom hcustom =>
    have hpos := (hplan hcustom).1
    simp only [resetTarget, hcustom, if_neg (not_le.mpr hpos)] at h
    cases h

/-- A boundary at which the row is reset by `now`. -/
def SubscriptionPlan.Passed (plan : SubscriptionPlan) (zone base endUnix now t : Int) : Prop :=
  plan.Boundary zone base t ∧ base < t ∧ t ≤ now ∧ (0 < endUnix → t ≤ endUnix)

private theorem calcNextResetTime_due_iff (hplan : plan.Timely) (hbase : 0 < base) :
    Due now (calcNextResetTime zone base plan endUnix) ↔
      ∃ t, plan.Passed zone base endUnix now t := by
  unfold Due
  cases htarget : resetTarget zone base plan with
  | none =>
    rw [calcNextResetTime_of_none htarget]
    constructor
    · rintro ⟨hpos, -⟩
      exact absurd hpos (lt_irrefl 0)
    · rintro ⟨t, hboundary, -⟩
      exact absurd hboundary (no_boundary_of_resetTarget hplan htarget t)
  | some next =>
    have hleast := isLeast_resetTarget hplan htarget
    have hlater := hleast.1.2
    rw [calcNextResetTime_of_some htarget]
    constructor
    · intro hdue
      by_cases hcut : 0 < endUnix ∧ endUnix < next
      · rw [if_pos hcut] at hdue
        exact absurd hdue.1 (lt_irrefl 0)
      · rw [if_neg hcut] at hdue
        exact ⟨next, hleast.1.1, hlater, hdue.2, by omega⟩
    · rintro ⟨t, hboundary, hafter, hnow, hend⟩
      have hle : next ≤ t := hleast.2 ⟨hboundary, hafter⟩
      rw [if_neg (by omega)]
      omega

private theorem calcNextResetTime_bounds (hplan : plan.Timely) (zone base endUnix : Int) :
    calcNextResetTime zone base plan endUnix = 0 ∨
      (base < calcNextResetTime zone base plan endUnix ∧
        (0 < endUnix → calcNextResetTime zone base plan endUnix ≤ endUnix)) := by
  cases htarget : resetTarget zone base plan with
  | none => exact .inl (calcNextResetTime_of_none htarget endUnix)
  | some =>
    have hlater := (isLeast_resetTarget hplan htarget).1.2
    rw [calcNextResetTime_of_some htarget]
    split
    · exact .inl rfl
    · exact .inr ⟨hlater, by omega⟩

end Boundaries

/-!
## Missed resets

A subscription whose resets were missed catches up with all of them in one call,
and it does not matter how often it was looked at on the way.
-/

def SubscriptionPlan.resetAfter (plan : SubscriptionPlan) (zone endUnix base : Int) : Int :=
  calcNextResetTime zone base plan endUnix

section Walk

variable {zone endUnix now base next base' next' : Int} {plan : SubscriptionPlan}

private theorem walk_of_resetLoop {fuel : Nat}
    (h : resetLoop zone plan endUnix now fuel base next true = some (base', next', true)) :
    Walk (plan.resetAfter zone endUnix) now base next base' next' := by
  induction fuel generalizing base next with
  | zero => cases h
  | succ fuel ih =>
    by_cases hdue : Due now next
    · rw [resetLoop_due hdue] at h
      exact .step hdue (ih h)
    · rw [resetLoop_stop hdue] at h
      simp only [Option.some.injEq, Prod.mk.injEq, and_true] at h
      obtain ⟨rfl, rfl⟩ := h
      exact .stop hdue

theorem resetLoop_of_walk (h : Walk (plan.resetAfter zone endUnix) now base next base' next')
    (advanced : Bool) :
    Returns (fun fuel => resetLoop zone plan endUnix now fuel base next advanced)
      (base', next', advanced || decide (Due now next)) := by
  induction h generalizing advanced with
  | stop hstop =>
    refine ⟨1, ?_⟩
    dsimp only
    rw [resetLoop_stop hstop, decide_eq_false hstop, Bool.or_false]
  | step hdue hrest ih =>
    obtain ⟨fuel, hloop⟩ := ih true
    refine ⟨fuel + 1, ?_⟩
    dsimp only
    rw [resetLoop_due hdue, decide_eq_true hdue, Bool.or_true]
    exact hloop

private theorem exists_walk (hplan : plan.Advances) (zone endUnix now base next : Int) :
    ∃ base' next', Walk (plan.resetAfter zone endUnix) now base next base' next' := by
  obtain ⟨fuel, base', next', hloop, -⟩ :=
    resetLoop_returns_of_advances zone endUnix now hplan base next true
  exact ⟨base', next', walk_of_resetLoop hloop⟩

end Walk

namespace UserSubscription

/-- The walk that a call takes from the row's base. -/
def WalksTo (zone : Int) (plan : SubscriptionPlan) (now : Int) (sub : UserSubscription)
    (base next : Int) : Prop :=
  Walk (plan.resetAfter zone sub.endTime) now sub.resetBase (sub.firstReset zone plan) base next

section

variable (sub : UserSubscription)

def scheduled (base next : Int) : UserSubscription :=
  { sub with lastResetTime := base, nextResetTime := next }

def resetTo (base next : Int) : UserSubscription :=
  { sub with amountUsed := 0, lastResetTime := base, nextResetTime := next }

def Waits (now : Int) : Prop := 0 < sub.nextResetTime ∧ now < sub.nextResetTime

theorem nextResetTime_scheduled (base next : Int) :
    (sub.scheduled base next).nextResetTime = next := rfl

theorem waits_scheduled_iff (base next now : Int) :
    (sub.scheduled base next).Waits now ↔ 0 < next ∧ now < next := Iff.rfl

end

end UserSubscription

/-- The call returns, with enough fuel, and leaves this row. -/
def ResetsTo (zone : Int) (plan : SubscriptionPlan) (sub : UserSubscription) (now : Int)
    (saved : UserSubscription) : Prop :=
  Returns (fun fuel => maybeResetUserSubscriptionWithPlanTx zone fuel sub plan now) saved

section Row

variable {zone now base next : Int} {plan : SubscriptionPlan} {sub : UserSubscription}

theorem resetsTo_waiting (hwaits : sub.Waits now) : ResetsTo zone plan sub now sub := by
  unfold UserSubscription.Waits at hwaits
  refine ⟨0, ?_⟩
  simp only [maybeResetUserSubscriptionWithPlanTx]
  rw [if_pos hwaits]

theorem firstReset_of_never (hnever : plan.resetPeriod = .never) :
    sub.firstReset zone plan = 0 := by
  simp [UserSubscription.firstReset, calcNextResetTime, resetTarget, hnever]

theorem resetsTo_due (hwaits : ¬ sub.Waits now) (hdue : Due now (sub.firstReset zone plan))
    (hwalk : sub.WalksTo zone plan now base next) :
    ResetsTo zone plan sub now (sub.resetTo base next) := by
  unfold UserSubscription.Waits at hwaits
  have hperiod : plan.resetPeriod ≠ .never := by
    intro hnever
    rw [firstReset_of_never hnever] at hdue
    exact absurd hdue.1 (lt_irrefl 0)
  obtain ⟨fuel, hloop⟩ := resetLoop_of_walk hwalk false
  refine ⟨fuel, ?_⟩
  dsimp only at hloop
  rw [decide_eq_true hdue, Bool.or_true, UserSubscription.firstReset] at hloop
  simp only [maybeResetUserSubscriptionWithPlanTx]
  rw [if_neg hwaits, if_neg hperiod, hloop]
  rfl

theorem resetsTo_idle (hwaits : ¬ sub.Waits now) (hdue : ¬ Due now (sub.firstReset zone plan)) :
    ResetsTo zone plan sub now
      (if sub.nextResetTime = 0 ∧ 0 < sub.firstReset zone plan then
        sub.scheduled sub.resetBase (sub.firstReset zone plan) else sub) := by
  unfold UserSubscription.Waits at hwaits
  by_cases hperiod : plan.resetPeriod = .never
  · refine ⟨0, ?_⟩
    simp only [maybeResetUserSubscriptionWithPlanTx]
    rw [if_neg hwaits, if_pos hperiod, firstReset_of_never hperiod, if_neg (by omega)]
  refine ⟨1, ?_⟩
  rw [UserSubscription.firstReset] at hdue ⊢
  simp only [maybeResetUserSubscriptionWithPlanTx]
  rw [if_neg hwaits, if_neg hperiod, resetLoop_stop hdue]
  simp only [if_true]
  by_cases hempty : sub.nextResetTime = 0 ∧
      0 < calcNextResetTime zone sub.resetBase plan sub.endTime
  · rw [if_pos hempty, if_pos hempty]
    rfl
  · rw [if_neg hempty, if_neg hempty]

theorem ResetsTo.unique {saved other : UserSubscription} (h : ResetsTo zone plan sub now saved)
    (hother : ResetsTo zone plan sub now other) : saved = other :=
  Returns.unique (stable_maybeReset zone sub plan now) h hother

theorem exists_walksTo (hplan : plan.Advances) (zone now : Int) (sub : UserSubscription) :
    ∃ base next, sub.WalksTo zone plan now base next :=
  exists_walk hplan zone sub.endTime now sub.resetBase (sub.firstReset zone plan)

theorem exists_resetsTo (hplan : plan.Advances) (zone : Int) (sub : UserSubscription)
    (now : Int) : ∃ saved, ResetsTo zone plan sub now saved := by
  by_cases hwaits : sub.Waits now
  · exact ⟨sub, resetsTo_waiting hwaits⟩
  by_cases hdue : Due now (sub.firstReset zone plan)
  · obtain ⟨base, next, hwalk⟩ := exists_walksTo hplan zone now sub
    exact ⟨_, resetsTo_due hwaits hdue hwalk⟩
  · exact ⟨_, resetsTo_idle hwaits hdue⟩

/-- What a call can do: nothing before the recorded time, a reset if the plan has a reset time
that has passed, and otherwise at most a new reset time. -/
theorem ResetsTo.cases {saved : UserSubscription} (h : ResetsTo zone plan sub now saved)
    (hplan : plan.Advances) :
    sub.Waits now ∧ saved = sub ∨
      ¬ sub.Waits now ∧ Due now (sub.firstReset zone plan) ∧
        (∃ base next, sub.WalksTo zone plan now base next ∧ saved = sub.resetTo base next) ∨
      ¬ sub.Waits now ∧ ¬ Due now (sub.firstReset zone plan) ∧
        saved = if sub.nextResetTime = 0 ∧ 0 < sub.firstReset zone plan then
          sub.scheduled sub.resetBase (sub.firstReset zone plan) else sub := by
  by_cases hwaits : sub.Waits now
  · exact .inl ⟨hwaits, h.unique (resetsTo_waiting hwaits)⟩
  by_cases hdue : Due now (sub.firstReset zone plan)
  · obtain ⟨base, next, hwalk⟩ := exists_walksTo hplan zone now sub
    have hsaved := h.unique (resetsTo_due hwaits hdue hwalk)
    exact .inr (.inl ⟨hwaits, hdue, base, next, hwalk, hsaved⟩)
  · exact .inr (.inr ⟨hwaits, hdue, h.unique (resetsTo_idle hwaits hdue)⟩)

end Row

section Collapse

variable {zone now later base next : Int} {plan : SubscriptionPlan} {sub : UserSubscription}

theorem resetBase_resetTo (hbase : 0 < base) : (sub.resetTo base next).resetBase = base :=
  if_neg (not_le.mpr hbase)

theorem firstReset_resetTo (hbase : 0 < base) :
    (sub.resetTo base next).firstReset zone plan = plan.resetAfter zone sub.endTime base := by
  rw [UserSubscription.firstReset, resetBase_resetTo hbase]
  rfl

theorem resetBase_scheduled : (sub.scheduled sub.resetBase next).resetBase = sub.resetBase := by
  simp only [UserSubscription.resetBase, UserSubscription.scheduled]
  split_ifs <;> rfl

theorem firstReset_scheduled :
    (sub.scheduled sub.resetBase next).firstReset zone plan = sub.firstReset zone plan := by
  rw [UserSubscription.firstReset, resetBase_scheduled]
  rfl

theorem resetsTo_after_reset {last last' : Int} (hwalk : sub.WalksTo zone plan now base next)
    (hdue : Due now (sub.firstReset zone plan)) (hle : now ≤ later)
    (hlater : sub.WalksTo zone plan later last last') :
    ResetsTo zone plan (sub.resetTo base next) later (sub.resetTo last last') := by
  have hbase := hwalk.base_pos (.inr hdue)
  have hnext : next = plan.resetAfter zone sub.endTime base := hwalk.next_eq rfl
  have honward := hwalk.onward hle hlater
  have hfirst : (sub.resetTo base next).firstReset zone plan = next := by
    rw [firstReset_resetTo hbase, hnext]
  by_cases hagain : Due later next
  · have hwaits : ¬ (sub.resetTo base next).Waits later := by
      rintro ⟨-, hlate⟩
      exact absurd hagain.2 (not_le.mpr hlate)
    have hwalk' : (sub.resetTo base next).WalksTo zone plan later last last' := by
      rw [UserSubscription.WalksTo, hfirst, resetBase_resetTo hbase]
      exact honward
    rw [← hfirst] at hagain
    exact resetsTo_due hwaits hagain hwalk'
  · obtain ⟨rfl, rfl⟩ := (Walk.stop hagain).unique honward
    by_cases hwaits : (sub.resetTo base next).Waits later
    · exact resetsTo_waiting hwaits
    rw [← hfirst] at hagain
    have hidle := resetsTo_idle hwaits hagain
    rw [hfirst, if_neg] at hidle
    · exact hidle
    · rintro ⟨hzero, hpos⟩
      exact hpos.ne' hzero

private theorem resetsTo_after_scheduled (hplan : plan.Advances) (hempty : sub.nextResetTime = 0)
    (hpos : 0 < sub.firstReset zone plan) {once : UserSubscription}
    (honce : ResetsTo zone plan sub later once) :
    ResetsTo zone plan (sub.scheduled sub.resetBase (sub.firstReset zone plan)) later once := by
  have hwaits : ¬ sub.Waits later := by
    rintro ⟨hnext, -⟩
    omega
  by_cases hdue : Due later (sub.firstReset zone plan)
  · obtain ⟨base, next, hwalk⟩ := exists_walksTo hplan zone later sub
    obtain rfl := honce.unique (resetsTo_due hwaits hdue hwalk)
    have hlate : ¬ (sub.scheduled sub.resetBase (sub.firstReset zone plan)).Waits later := by
      rw [UserSubscription.waits_scheduled_iff]
      rintro ⟨-, hlate⟩
      exact absurd hdue.2 (not_le.mpr hlate)
    have hwalk' : (sub.scheduled sub.resetBase (sub.firstReset zone plan)).WalksTo zone plan later
        base next := by
      rw [UserSubscription.WalksTo, firstReset_scheduled, resetBase_scheduled]
      exact hwalk
    apply resetsTo_due hlate _ hwalk'
    rw [firstReset_scheduled]
    exact hdue
  · have hidle := resetsTo_idle hwaits hdue
    rw [if_pos ⟨hempty, hpos⟩] at hidle
    obtain rfl := honce.unique hidle
    apply resetsTo_waiting
    rw [UserSubscription.waits_scheduled_iff]
    constructor
    · exact hpos
    · exact lt_of_not_ge fun hle => hdue ⟨hpos, hle⟩

theorem resetsTo_collapse (hplan : plan.Advances) (hle : now ≤ later)
    {first once : UserSubscription} (hfirst : ResetsTo zone plan sub now first)
    (honce : ResetsTo zone plan sub later once) : ResetsTo zone plan first later once := by
  rcases hfirst.cases hplan with
    ⟨-, rfl⟩ | ⟨hwaits, hdue, base, next, hwalk, rfl⟩ | ⟨hwaits, hdue, rfl⟩
  · exact honce
  · have hlate : ¬ sub.Waits later := by
      rintro ⟨hpos, hlate⟩
      exact hwaits ⟨hpos, hle.trans_lt hlate⟩
    obtain ⟨last, last', hlater⟩ := exists_walksTo hplan zone later sub
    obtain rfl := honce.unique (resetsTo_due hlate (hdue.mono hle) hlater)
    exact resetsTo_after_reset hwalk hdue hle hlater
  · split
    · next hempty => exact resetsTo_after_scheduled hplan hempty.1 hempty.2 honce
    · exact honce

end Collapse

/-- The reset times of a row are those of the plan: the next one is the first after the base, or
none is recorded. -/
structure UserSubscription.Recorded (zone : Int) (plan : SubscriptionPlan)
    (sub : UserSubscription) : Prop where
  base : 0 < sub.resetBase
  next : sub.nextResetTime = 0 ∨ sub.nextResetTime = sub.firstReset zone plan

open UserSubscription

section Recorded

variable {zone now : Int} {plan : SubscriptionPlan} {sub saved : UserSubscription}

theorem recorded_create {db db' : SubscriptionDB} {userId : Int} {source : String}
    (h : createUserSubscriptionFromPlanTx zone db now userId plan source = .ok db')
    (hnow : 0 < now) : ∀ row ∈ db'.subs.rows, row ∈ db.subs.rows ∨ row.Recorded zone plan := by
  obtain ⟨sub, hcreated, hstart, hnext, hlast⟩ := create_created h
  have hbase : sub.resetBase = now := by
    unfold resetBase
    rw [hstart, hlast]
    split_ifs
    · rfl
    · rfl
    · rfl
    · contradiction
  intro row hrow
  rcases hcreated.mem_rows row hrow with hold | rfl
  · exact .inl hold
  right
  constructor
  · rw [hbase]
    exact hnow
  · right
    rw [firstReset, hbase]
    exact hnext

section

variable (h : sub.Recorded zone plan)
include h

theorem UserSubscription.Recorded.scheduled :
    (sub.scheduled sub.resetBase (sub.firstReset zone plan)).Recorded zone plan := by
  constructor
  · rw [resetBase_scheduled]
    exact h.base
  · rw [firstReset_scheduled, nextResetTime_scheduled]
    exact .inr rfl

theorem UserSubscription.Recorded.not_due (hwaits : sub.Waits now) :
    ¬ Due now (sub.firstReset zone plan) := by
  obtain ⟨hpos, hlater⟩ := hwaits
  rintro ⟨-, hpast⟩
  rcases h.next with hnext | hnext <;> omega

theorem UserSubscription.Recorded.due_iff (hplan : plan.Timely) :
    Due now (sub.firstReset zone plan) ↔ ∃ t, plan.Passed zone sub.resetBase sub.endTime now t := by
  rw [firstReset]
  exact calcNextResetTime_due_iff hplan h.base

end

structure CaughtUp (zone : Int) (plan : SubscriptionPlan) (now : Int)
    (sub saved : UserSubscription) : Prop where
  recorded : saved.Recorded zone plan
  endTime : saved.endTime = sub.endTime
  ahead : ¬ Due now saved.nextResetTime
  used : saved.amountUsed = if Due now (sub.firstReset zone plan) then 0 else sub.amountUsed

theorem UserSubscription.Recorded.caughtUp (h : sub.Recorded zone plan) (hplan : plan.Advances)
    (hsaved : ResetsTo zone plan sub now saved) : CaughtUp zone plan now sub saved := by
  rcases hsaved.cases hplan with
    ⟨hwaits, rfl⟩ | ⟨-, hdue, base, next, hwalk, rfl⟩ | ⟨-, hdue, rfl⟩
  · constructor
    · exact h
    · rfl
    · rintro ⟨-, hpast⟩
      exact absurd hwaits.2 (not_lt.mpr hpast)
    · rw [if_neg (h.not_due hwaits)]
  · constructor
    · have hbase := hwalk.base_pos (.inr hdue)
      constructor
      · rw [resetBase_resetTo hbase]
        exact hbase
      · rw [firstReset_resetTo hbase]
        exact .inr (hwalk.next_eq rfl)
    · rfl
    · exact hwalk.stopped
    · rw [if_pos hdue]
      rfl
  · split
    · constructor
      · exact h.scheduled
      · rfl
      · rw [nextResetTime_scheduled]
        exact hdue
      · rw [if_neg hdue]
        rfl
    · constructor
      · exact h
      · rfl
      · intro hpast
        rcases h.next with hnext | hnext
        · exact absurd hnext hpast.1.ne'
        · rw [hnext] at hpast
          exact hdue hpast
      · rw [if_neg hdue]

theorem CaughtUp.next_bounds (h : CaughtUp zone plan now sub saved) (hplan : plan.Timely) :
    saved.nextResetTime = 0 ∨
      now < saved.nextResetTime ∧ (0 < sub.endTime → saved.nextResetTime ≤ sub.endTime) := by
  have hbase := h.recorded.base
  have hahead := h.ahead
  rcases h.recorded.next with hnone | hnext
  · exact .inl hnone
  rw [firstReset, h.endTime] at hnext
  rcases calcNextResetTime_bounds hplan zone saved.resetBase sub.endTime with
    hzero | ⟨hlater, hend⟩
  · exact .inl (hnext.trans hzero)
  rw [← hnext] at hlater hend
  unfold Due at hahead
  exact .inr ⟨by omega, hend⟩

end Recorded

/--
A call at `t₁` makes no difference to a call at `t₂`, and a second call at `t₂` changes nothing.
If the row follows the plan, its next reset is then 0 or lies after `t₂` and not after its end, and
its used amount is reset exactly if a boundary after the last reset, or after the start if there was
none, has passed.
-/
theorem missed_resets_collapse (zone : Int) (plan : SubscriptionPlan) (hplan : plan.Timely)
    (sub : UserSubscription) (t₁ t₂ : Int) (hle : t₁ ≤ t₂) :
    ∃ first once,
      ResetsTo zone plan sub t₁ first ∧ ResetsTo zone plan sub t₂ once ∧
      ResetsTo zone plan first t₂ once ∧ ResetsTo zone plan once t₂ once ∧
      (sub.Recorded zone plan →
        once.Recorded zone plan ∧
        (once.nextResetTime = 0 ∨
          t₂ < once.nextResetTime ∧ (0 < sub.endTime → once.nextResetTime ≤ sub.endTime)) ∧
        ((∃ t, plan.Passed zone sub.resetBase sub.endTime t₂ t) → once.amountUsed = 0) ∧
        ((¬ ∃ t, plan.Passed zone sub.resetBase sub.endTime t₂ t) →
          once.amountUsed = sub.amountUsed)) := by
  obtain ⟨first, hfirst⟩ := exists_resetsTo hplan.advances zone sub t₁
  obtain ⟨once, honce⟩ := exists_resetsTo hplan.advances zone sub t₂
  refine ⟨first, once, hfirst, honce, ?_, ?_, ?_⟩
  · exact resetsTo_collapse hplan.advances hle hfirst honce
  · exact resetsTo_collapse hplan.advances le_rfl honce honce
  · intro hrecorded
    have hcaught := hrecorded.caughtUp hplan.advances honce
    refine ⟨hcaught.recorded, hcaught.next_bounds hplan, ?_, ?_⟩
    · intro hpassed
      rw [hcaught.used, if_pos ((hrecorded.due_iff hplan).mpr hpassed)]
    · intro hpassed
      rw [← hrecorded.due_iff hplan] at hpassed
      rw [hcaught.used, if_neg hpassed]

def dailyPlan : SubscriptionPlan :=
  { id := 1, durationUnit := .day, durationValue := 7, customSeconds := 0, maxPurchasePerUser := 0,
    upgradeGroup := "", totalAmount := 100, quotaResetPeriod := "daily",
    quotaResetCustomSeconds := 0 }

def dailyRow : UserSubscription :=
  { id := 1, userId := 7, planId := 1, amountTotal := 100, amountUsed := 30, startTime := 129600,
    endTime := 734400, status := .active, source := "order", lastResetTime := 129600,
    nextResetTime := 172800, upgradeGroup := "", prevUserGroup := "" }

private theorem recorded_dailyRow : dailyRow.Recorded 0 dailyPlan := by
  constructor
  · decide
  · right
    decide +kernel

/-- Two midnights have passed since the purchase. -/
theorem missed_resets_collapse_daily :
    ∃ first,
      ResetsTo 0 dailyPlan dailyRow 200000 first ∧
      ResetsTo 0 dailyPlan first 300000 (dailyRow.resetTo 259200 345600) ∧
      dailyRow.Recorded 0 dailyPlan ∧
      dailyPlan.Passed 0 dailyRow.resetBase dailyRow.endTime 300000 172800 := by
  have hcall : ResetsTo 0 dailyPlan dailyRow 300000 (dailyRow.resetTo 259200 345600) :=
    ⟨4, by decide +kernel⟩
  obtain ⟨first, once, hfirst, honce, hsecond, -, -⟩ :=
    missed_resets_collapse 0 dailyPlan (by decide +kernel) dailyRow 200000 300000 (by decide)
  rw [honce.unique hcall] at hsecond
  have hmidnight : dailyPlan.Boundary 0 dailyRow.resetBase 172800 := by
    apply SubscriptionPlan.Boundary.calendar 2
    have hperiod : dailyPlan.resetPeriod = .daily := by decide +kernel
    rw [hperiod]
    trivial
  exact ⟨first, hfirst, hsecond, recorded_dailyRow, hmidnight, by decide, by decide, by decide⟩

def hourRow : UserSubscription :=
  { dailyRow with endTime := 133200, lastResetTime := 0, nextResetTime := 0 }

def staleRow : UserSubscription := { dailyRow with nextResetTime := 130000 }

/-- The midnight before the purchase lies after a last reset time of 0, and the row is not reset.
A recorded time that is not one of the plan's stays, though it has passed. -/
theorem missed_resets_counterexample :
    (calcNextResetTime 0 hourRow.startTime dailyPlan hourRow.endTime = 0 ∧
      (hourRow.lastResetTime < 86400 ∧ midnight 0 1 = 86400 ∧ 86400 ≤ hourRow.endTime) ∧
      maybeResetUserSubscriptionWithPlanTx 0 1 hourRow dailyPlan 130000 = some hourRow ∧
      hourRow.amountUsed = 30) ∧
    maybeResetUserSubscriptionWithPlanTx 0 1 staleRow dailyPlan 140000 = some staleRow ∧
    staleRow.nextResetTime = 130000 := by
  decide +kernel

end NewApi.Subscriptions
