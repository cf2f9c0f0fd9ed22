import NewApi.Foundation.Fuel
import NewApi.Subscriptions.Store

/-!
# The reset loop of one subscription

`maybeResetUserSubscriptionWithPlanTx` moves the reset time forward until it
passes the clock.  It ends unless a custom period wraps around to less than a
second; it leaves a due row as it is if the plan of today gives no reset
between the stored base and now.
-/

namespace NewApi.Subscriptions

open Foundation UserSubscription

def UserSubscription.firstReset (zone : Int) (sub : UserSubscription)
    (plan : SubscriptionPlan) : Int := calcNextResetTime zone sub.resetBase plan sub.endTime

section Loop

variable {zone endUnix now base next : Int} {plan : SubscriptionPlan} {fuel : Nat} {advanced : Bool}

theorem resetLoop_due (hdue : 0 < next ∧ next ≤ now) :
    resetLoop zone plan endUnix now (fuel + 1) base next advanced =
      resetLoop zone plan endUnix now fuel next (calcNextResetTime zone next plan endUnix)
        true := by
  rw [resetLoop, if_pos hdue]

theorem resetLoop_stop (hdue : ¬ (0 < next ∧ next ≤ now)) :
    resetLoop zone plan endUnix now (fuel + 1) base next advanced =
      some (base, next, advanced) := by
  rw [resetLoop, if_neg hdue]

private theorem resetLoop_succ {r : Int × Int × Bool}
    (h : resetLoop zone plan endUnix now fuel base next advanced = some r) :
    resetLoop zone plan endUnix now (fuel + 1) base next advanced = some r := by
  induction fuel generalizing base next advanced with
  | zero => simp [resetLoop] at h
  | succ fuel ih =>
    by_cases hdue : 0 < next ∧ next ≤ now
    · rw [resetLoop_due hdue] at h ⊢
      exact ih h
    · rw [resetLoop_stop hdue] at h ⊢
      exact h

end Loop

theorem stable_maybeReset (zone : Int) (sub : UserSubscription) (plan : SubscriptionPlan)
    (now : Int) :
    Stable fun fuel => maybeResetUserSubscriptionWithPlanTx zone fuel sub plan now := by
  intro fuel r h
  simp only [maybeResetUserSubscriptionWithPlanTx] at h ⊢
  split
  · simp_all
  split
  · simp_all
  rename_i hlate hnever
  rw [if_neg hlate, if_neg hnever] at h
  cases hloop : resetLoop zone plan sub.endTime now fuel sub.resetBase
      (calcNextResetTime zone sub.resetBase plan sub.endTime) false with
  | none => simp [hloop] at h
  | some =>
    rw [resetLoop_succ hloop]
    rw [hloop] at h
    exact h

section

variable {zone endUnix now : Int} {plan : SubscriptionPlan}

private theorem exists_resetMeasure (zone endUnix now : Int) (hplan : plan.Advances) :
    ∃ μ : Int → Nat, ∀ b, 0 < b → 0 < calcNextResetTime zone b plan endUnix →
      calcNextResetTime zone b plan endUnix ≤ now →
        μ (calcNextResetTime zone b plan endUnix) < μ b := by
  by_cases hback : plan.resetPeriod = .custom ∧ plan.customStep < 0
  · refine ⟨Int.toNat, fun b _ hnext _ => ?_⟩
    rcases resetTarget_cases (calcNextResetTime_of_pos hnext) with ⟨hcalendar, -⟩ | ⟨-, -, hstep⟩
    · exact absurd hback.1 hcalendar
    · omega
  · refine ⟨fun b => (now - b).toNat, fun b _ hnext _ => ?_⟩
    dsimp only
    rcases resetTarget_cases (calcNextResetTime_of_pos hnext) with
      ⟨-, hlater⟩ | ⟨hcustom, hpos, hstep⟩
    · omega
    have hne := hplan hcustom hpos
    have hforward : ¬ plan.customStep < 0 := fun hneg => hback ⟨hcustom, hneg⟩
    omega

theorem resetLoop_returns_of_advances (zone endUnix now : Int) (hplan : plan.Advances)
    (base next : Int) (advanced : Bool) :
    ∃ fuel base' next',
      resetLoop zone plan endUnix now fuel base next advanced =
        some (base', next', advanced || decide (0 < next ∧ next ≤ now)) ∧
      ¬ (0 < next' ∧ next' ≤ now) := by
  obtain ⟨μ, hμ⟩ := exists_resetMeasure zone endUnix now hplan
  induction hm : μ next using Nat.strongRecOn generalizing base next advanced with
  | ind m ih =>
    by_cases hdue : 0 < next ∧ next ≤ now
    · rw [decide_eq_true hdue, Bool.or_true]
      by_cases hagain : 0 < calcNextResetTime zone next plan endUnix ∧
          calcNextResetTime zone next plan endUnix ≤ now
      · obtain ⟨fuel, base', next', hloop, hlast⟩ := ih _
          (hm ▸ hμ next hdue.1 hagain.1 hagain.2) next
          (calcNextResetTime zone next plan endUnix) true rfl
        refine ⟨fuel + 1, base', next', ?_, hlast⟩
        rw [resetLoop_due hdue, hloop, Bool.true_or]
      · refine ⟨2, next, calcNextResetTime zone next plan endUnix, ?_, hagain⟩
        rw [resetLoop_due hdue, resetLoop_stop hagain]
    · refine ⟨1, base, next, ?_, hdue⟩
      rw [resetLoop_stop hdue, decide_eq_false hdue, Bool.or_false]

private theorem resetLoop_none {start : Int} (hplan : ¬ plan.Advances)
    (hpos : 0 < calcNextResetTime zone start plan endUnix)
    (hdue : calcNextResetTime zone start plan endUnix ≤ now) (fuel : Nat) (base : Int)
    (advanced : Bool) :
    resetLoop zone plan endUnix now fuel base (calcNextResetTime zone start plan endUnix)
      advanced = none := by
  have hstart : calcNextResetTime zone start plan endUnix = start := by
    unfold SubscriptionPlan.Advances at hplan
    push Not at hplan
    obtain ⟨hcustom, -, hstep⟩ := hplan
    rcases resetTarget_cases (calcNextResetTime_of_pos hpos) with ⟨hcalendar, -⟩ | ⟨-, -, hnext⟩
    · exact absurd hcustom hcalendar
    · omega
  induction fuel generalizing base advanced with
  | zero => rfl
  | succ fuel ih =>
    rw [resetLoop_due ⟨hpos, hdue⟩]
    nth_rewrite 2 [hstart]
    exact ih _ true

end

def UserSubscription.resetDue (now : Int) (sub : UserSubscription) : Bool :=
  decide (0 < sub.nextResetTime) && decide (sub.nextResetTime ≤ now)

def UserSubscription.Resets (zone now : Int) (sub : UserSubscription)
    (plan : SubscriptionPlan) : Prop :=
  plan.resetPeriod ≠ .never ∧ 0 < sub.firstReset zone plan ∧ sub.firstReset zone plan ≤ now

instance (zone now : Int) (sub : UserSubscription) (plan : SubscriptionPlan) :
    Decidable (sub.Resets zone now plan) := by
  unfold UserSubscription.Resets
  infer_instance

section Due

variable {zone now : Int} {sub : UserSubscription} {plan : SubscriptionPlan}

section

variable (hdue : sub.resetDue now = true)
include hdue

theorem maybeReset_kept (hkept : ¬ sub.Resets zone now plan) :
    Returns (fun fuel => maybeResetUserSubscriptionWithPlanTx zone fuel sub plan now) sub := by
  simp only [resetDue, Bool.and_eq_true, decide_eq_true_eq] at hdue
  refine ⟨1, ?_⟩
  simp only [maybeResetUserSubscriptionWithPlanTx]
  rw [if_neg (by omega)]
  split
  · rfl
  rename_i hperiod
  have hfirst : ¬ (0 < calcNextResetTime zone sub.resetBase plan sub.endTime ∧
      calcNextResetTime zone sub.resetBase plan sub.endTime ≤ now) := fun h => hkept ⟨hperiod, h⟩
  rw [resetLoop_stop hfirst]
  simp only [if_true]
  rw [if_neg (by omega)]

theorem maybeReset_done (hreset : sub.Resets zone now plan) (hplan : plan.Advances) :
    ∃ saved, Returns (fun fuel => maybeResetUserSubscriptionWithPlanTx zone fuel sub plan now)
        saved ∧ saved.id = sub.id ∧ saved.resetDue now = false := by
  simp only [resetDue, Bool.and_eq_true, decide_eq_true_eq] at hdue
  obtain ⟨fuel, base, next, hloop, hlast⟩ := resetLoop_returns_of_advances zone sub.endTime
    now hplan sub.resetBase (sub.firstReset zone plan) false
  rw [decide_eq_true hreset.2, Bool.or_true] at hloop
  refine ⟨{ sub with amountUsed := 0, lastResetTime := base, nextResetTime := next },
    ⟨fuel, ?_⟩, rfl, ?_⟩
  · unfold firstReset at hloop
    simp only [maybeResetUserSubscriptionWithPlanTx, hloop]
    rw [if_neg (by omega), if_neg hreset.1, if_neg (by decide)]
  · simpa [resetDue] using hlast

theorem maybeReset_hung (hreset : sub.Resets zone now plan) (hplan : ¬ plan.Advances) (fuel : Nat) :
    maybeResetUserSubscriptionWithPlanTx zone fuel sub plan now = none := by
  simp only [resetDue, Bool.and_eq_true, decide_eq_true_eq] at hdue
  have hloop := resetLoop_none hplan hreset.2.1 hreset.2.2 fuel sub.resetBase false
  simp only [maybeResetUserSubscriptionWithPlanTx, hloop]
  rw [if_neg (by omega), if_neg hreset.1]

end

end Due

end NewApi.Subscriptions
