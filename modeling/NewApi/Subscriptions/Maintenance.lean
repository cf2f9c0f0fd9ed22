import NewApi.Foundation.Sweep
import NewApi.Subscriptions.Lifecycle
import NewApi.Subscriptions.Reset

/-!
# The maintenance task

`runSubscriptionQuotaResetOnce` expires and resets subscriptions in batches of
300 until a batch is not full.  A batch counts the rows it has looked at, not
the rows it has moved.
-/

namespace NewApi.Subscriptions

open Foundation List SubscriptionDB UserSubscription SweepItem

def subscriptionResetBatchSize : Nat := 300

/-! ## Resetting what is due -/

def nextResetOrder (a b : UserSubscription) : Prop := a.nextResetTime ≤ b.nextResetTime

instance : DecidableRel nextResetOrder := fun a b => by
  unfold nextResetOrder
  infer_instance

instance : Std.Total nextResetOrder := ⟨fun _ _ => Int.le_total ..⟩

instance : IsTrans UserSubscription nextResetOrder := ⟨fun _ _ _ => Int.le_trans⟩

def SubscriptionDB.dueSubscriptions (db : SubscriptionDB) (now : Int) : List UserSubscription :=
  (db.subs.rows.filter fun sub =>
    sub.resetDue now && decide (sub.status = .active)).insertionSort nextResetOrder

/-- The transaction for one row.  A row that is left as it is is not saved, which
is the same as saving it. -/
def resetDueSubscription (zone : Int) (fuel : Nat) (now : Int) (db : SubscriptionDB)
    (sub : UserSubscription) : Option (SubscriptionDB × Nat) :=
  match db.getSubscriptionPlanById sub.planId with
  | none => some (db, 0)
  | some plan =>
    match db.subs.get sub.id with
    | none => some (db, 0)
    | some locked =>
      if locked.resetDue now then
        (maybeResetUserSubscriptionWithPlanTx zone fuel locked plan now).map fun saved =>
          ({ db with subs := db.subs.save saved }, 1)
      else some (db, 0)

def resetEach (zone : Int) (fuel : Nat) (now : Int) :
    List UserSubscription → SubscriptionDB → Option (SubscriptionDB × Nat)
  | [], db => some (db, 0)
  | sub :: rest, db =>
    (resetDueSubscription zone fuel now db sub).bind fun (db, count) =>
      (resetEach zone fuel now rest db).map fun (db, resetCount) => (db, count + resetCount)

def resetDueSubscriptions (zone : Int) (fuel : Nat) (db : SubscriptionDB) (now limit : Int) :
    Option (SubscriptionDB × Nat) :=
  let limit := if limit ≤ 0 then 200 else limit.toNat
  resetEach zone fuel now ((db.dueSubscriptions now).take limit) db

/-! ## The two loops -/

def fullBatch (result : SubscriptionDB × Nat) : SubscriptionDB × Bool :=
  (result.1, decide (result.2 ≠ 0) && !decide (result.2 < subscriptionResetBatchSize))

private theorem fullBatch_again (result : SubscriptionDB × Nat) :
    (fullBatch result).2 = decide (subscriptionResetBatchSize ≤ result.2) := by
  unfold fullBatch
  by_cases hfull : subscriptionResetBatchSize ≤ result.2
  · have hsome : result.2 ≠ 0 := by
      unfold subscriptionResetBatchSize at hfull
      omega
    simp [hfull, hsome]
  · simp [hfull, Nat.lt_of_not_le hfull]

def expireLoop (now : Int) : SubscriptionDB → Nat → Option SubscriptionDB :=
  loopFrom fun _ db => some (fullBatch (expireDueSubscriptions db now subscriptionResetBatchSize))

def resetDueLoop (zone now : Int) : SubscriptionDB → Nat → Option SubscriptionDB :=
  loopFrom fun fuel db =>
    (resetDueSubscriptions zone fuel db now subscriptionResetBatchSize).map fullBatch

/-- The batch loops of the task at a fixed time, without the logging and the cleanup
that follow. -/
def runSubscriptionQuotaResetOnce (zone : Int) (db : SubscriptionDB) (now : Int)
    (fuel : Nat) : Option SubscriptionDB :=
  (expireLoop now db fuel).bind fun db => resetDueLoop zone now db fuel

/-! ## Expiry ends -/

def SubscriptionDB.expireCount (db : SubscriptionDB) (now : Int) : Nat :=
  db.subs.rows.countP (·.due now)

theorem UserSubscription.expireFor_due (userId now : Int) (sub : UserSubscription) :
    (sub.expireFor userId now).due now = (sub.due now && !decide (sub.userId = userId)) := by
  unfold expireFor
  split
  · rename_i h
    simp [h.1, due]
  rename_i h
  by_cases howner : sub.userId = userId
  · have hnot : sub.due now = false := by
      simpa [howner] using h
    simp [hnot]
  · simp [howner]

private theorem expireRows_count (now : Int) (db : SubscriptionDB) (userId : Int) :
    (db.expireRows userId now).expireCount now +
        (db.subs.rows.countP fun sub => decide (sub.userId = userId) && sub.due now) =
      db.expireCount now := by
  change (db.subs.rows.map (·.expireFor userId now)).countP (·.due now) + _ =
    db.subs.rows.countP (·.due now)
  induction db.subs.rows with
  | nil => rfl
  | cons sub =>
    rw [map_cons, countP_cons, countP_cons, countP_cons, expireFor_due]
    by_cases howner : sub.userId = userId <;> cases sub.due now <;>
      simp only [howner, decide_true, decide_false, Bool.not_true, Bool.not_false,
        Bool.and_true, Bool.and_false, if_true, Bool.false_eq_true, if_false] <;> omega

private theorem expireUser_count (now : Int) (db : SubscriptionDB) (userId : Int) :
    (expireUser now db userId).1.expireCount now + (expireUser now db userId).2 =
      db.expireCount now := by
  have hrows := expireRows_count now db userId
  simp only [expireUser]
  split
  · exact hrows
  unfold expireCount at hrows ⊢
  rw [fallBackGroup_subs]
  exact hrows

private theorem expireUsers_count (now : Int) (userIds : List Int) (db : SubscriptionDB) :
    (expireUsers now userIds db).1.expireCount now + (expireUsers now userIds db).2 =
      db.expireCount now := by
  induction userIds generalizing db with
  | nil => rfl
  | cons userId rest ih =>
    have hfirst := expireUser_count now db userId
    have hrest := ih (expireUser now db userId).1
    simp only [expireUsers]
    omega

private theorem expireDueSubscriptions_count (db : SubscriptionDB) (now limit : Int) :
    (expireDueSubscriptions db now limit).1.expireCount now +
      (expireDueSubscriptions db now limit).2 = db.expireCount now := expireUsers_count now _ db

theorem stable_expireDueSubscriptions {now : Int} (db : SubscriptionDB) :
    Stable fun _ : Nat =>
      some (fullBatch (expireDueSubscriptions db now subscriptionResetBatchSize)) := .const _

private theorem expireLoop_ends (now : Int) (db : SubscriptionDB) : Ends (expireLoop now db) := by
  refine ends_loopFrom_of_measure stable_expireDueSubscriptions (·.expireCount now) ?_ db
  intro db
  refine ⟨_, ⟨0, rfl⟩, ?_⟩
  intro hagain
  have hcount := expireDueSubscriptions_count db now subscriptionResetBatchSize
  simp only [fullBatch, Bool.and_eq_true, decide_eq_true_eq] at hagain ⊢
  omega

/-! ## What a reset does to the queue -/

def SubscriptionDB.resetItem (db : SubscriptionDB) (zone now : Int) (sub : UserSubscription) :
    SweepItem :=
  match db.getSubscriptionPlanById sub.planId with
  | none => .skipped
  | some plan =>
    if sub.Resets zone now plan then if plan.Advances then .done else .hung
    else .kept

def SubscriptionDB.resetItems (db : SubscriptionDB) (zone now : Int) : List SweepItem :=
  (db.dueSubscriptions now).map (db.resetItem zone now)

def SubscriptionDB.resetDueCount (db : SubscriptionDB) (now : Int) : Nat :=
  db.subs.rows.countP (·.resetDue now)

structure Swept (zone now : Int) (db db' : SubscriptionDB) (batch : List UserSubscription) :
    Prop where
  plans : db'.plans = db.plans
  due : db'.dueSubscriptions now = (db.dueSubscriptions now).filter fun sub =>
    !(decide (sub ∈ batch) && decide (db.resetItem zone now sub = .done))
  count : db'.resetDueCount now + (batch.map (db.resetItem zone now)).count .done =
    db.resetDueCount now

section Queue

variable {zone now : Int} {db db' db'' : SubscriptionDB} {sub : UserSubscription}

theorem mem_dueSubscriptions :
    sub ∈ db.dueSubscriptions now ↔
      sub ∈ db.subs.rows ∧ sub.resetDue now = true ∧ sub.status = .active := by
  simp [dueSubscriptions, mem_insertionSort]

theorem nodup_dueSubscriptions : (db.dueSubscriptions now).Nodup := by
  unfold dueSubscriptions
  rw [(perm_insertionSort _ _).nodup_iff]
  exact db.subs.nodup.of_map.filter _

theorem resetItem_congr (h : db'.plans = db.plans) :
    db'.resetItem zone now = db.resetItem zone now := by
  funext sub
  simp [resetItem, getSubscriptionPlanById, h]

theorem Swept.refl : Swept zone now db db [] where
  plans := rfl
  due := by simp
  count := by simp

theorem Swept.cons {rest : List UserSubscription} (hfirst : Swept zone now db db' [sub])
    (hrest : Swept zone now db' db'' rest) : Swept zone now db db'' (sub :: rest) where
  plans := hrest.plans.trans hfirst.plans
  due := by
    rw [hrest.due, hfirst.due, filter_filter, resetItem_congr hfirst.plans]
    apply filter_congr
    intro row _
    simp only [mem_cons, not_mem_nil, or_false, Bool.decide_or]
    cases decide (row = sub) <;> cases decide (row ∈ rest) <;>
      cases decide (db.resetItem zone now row = .done) <;> rfl
  count := by
    have hcount := hrest.count
    rw [resetItem_congr hfirst.plans] at hcount
    have hone := hfirst.count
    rw [map_cons, count_cons]
    rw [map_singleton, count_singleton] at hone
    omega

theorem Swept.idle (h : db.resetItem zone now sub ≠ .done) : Swept zone now db db [sub] where
  plans := rfl
  due := by
    symm
    rw [filter_eq_self]
    intro row _
    by_cases hsame : row = sub <;> simp [hsame, h]
  count := by simp [h]

theorem Swept.saved {saved : UserSubscription} (hsub : sub ∈ db.dueSubscriptions now)
    (hdone : db.resetItem zone now sub = .done) (hid : saved.id = sub.id)
    (hmoved : saved.resetDue now = false) :
    Swept zone now db { db with subs := db.subs.save saved } [sub] where
  plans := rfl
  due := by
    have hrow := (mem_dueSubscriptions.mp hsub).1
    simp only [dueSubscriptions]
    rw [Table.filter_save _ (by simp [hmoved]), ← filter_insertionSort]
    apply filter_congr
    intro row hmem
    have hrows := mem_of_mem_filter ((mem_insertionSort _).mp hmem)
    have hsame : row.id = saved.id ↔ row = sub :=
      ⟨fun h => db.subs.eq_of_key_eq hrows hrow (h.trans hid), fun h => by rw [h, hid]⟩
    by_cases h : row = sub
    · simp [h, hid, hdone]
    · simp [h, hsame]
  count := by
    obtain ⟨hrow, hdue, -⟩ := mem_dueSubscriptions.mp hsub
    have hget : db.subs.get saved.id = some sub := (db.subs.get_eq_some_iff).mpr ⟨hrow, hid.symm⟩
    have hcount := db.subs.countP_save hget (·.resetDue now)
    simp only [hdue, hmoved, if_true, Bool.false_eq_true, if_false] at hcount
    simpa [resetDueCount, hdone] using hcount

end Queue

/-! ## One batch -/

section Batch

variable {zone now : Int} {db : SubscriptionDB}

theorem stable_resetDueSubscription (sub : UserSubscription) :
    Stable fun fuel => resetDueSubscription zone fuel now db sub := by
  unfold resetDueSubscription
  cases db.getSubscriptionPlanById sub.planId with
  | none => exact .const _
  | some plan =>
    cases db.subs.get sub.id with
    | none => exact .const _
    | some locked =>
      cases hdue : locked.resetDue now with
      | false =>
        simp only [hdue, Bool.false_eq_true, if_false]
        exact .const _
      | true =>
        simp only [hdue, if_true]
        exact (stable_maybeReset zone locked plan now).map _

private theorem resetDueSubscription_hung {sub : UserSubscription}
    (hsub : sub ∈ db.dueSubscriptions now) (hitem : db.resetItem zone now sub = .hung)
    (fuel : Nat) : resetDueSubscription zone fuel now db sub = none := by
  obtain ⟨hrow, hdue, -⟩ := mem_dueSubscriptions.mp hsub
  have hget : db.subs.get sub.id = some sub := (db.subs.get_eq_some_iff).mpr ⟨hrow, rfl⟩
  unfold resetItem at hitem
  unfold resetDueSubscription
  cases hplan : db.getSubscriptionPlanById sub.planId with
  | none => simp [hplan] at hitem
  | some =>
    simp only [hplan] at hitem
    split at hitem
    · rename_i hreset
      split at hitem
      · contradiction
      · rename_i hstay
        simp [hget, hdue, maybeReset_hung hdue hreset hstay]
    · contradiction

private theorem resetDueSubscription_swept {sub : UserSubscription}
    (hsub : sub ∈ db.dueSubscriptions now) (hitem : db.resetItem zone now sub ≠ .hung) :
    ∃ db', Returns (fun fuel => resetDueSubscription zone fuel now db sub)
        (db', if (db.resetItem zone now sub).counted = true then 1 else 0) ∧
      Swept zone now db db' [sub] := by
  obtain ⟨hrow, hdue, -⟩ := mem_dueSubscriptions.mp hsub
  have hget : db.subs.get sub.id = some sub := (db.subs.get_eq_some_iff).mpr ⟨hrow, rfl⟩
  cases hplan : db.getSubscriptionPlanById sub.planId with
  | none =>
    have hskip : db.resetItem zone now sub = .skipped := by
      simp [resetItem, hplan]
    refine ⟨db, ⟨0, ?_⟩, .idle (by simp [hskip])⟩
    simp [resetDueSubscription, hplan, hskip, counted]
  | some plan =>
    by_cases hreset : sub.Resets zone now plan
    · by_cases hadvances : plan.Advances
      · have hdone : db.resetItem zone now sub = .done := by
          simp [resetItem, hplan, hreset, hadvances]
        obtain ⟨saved, ⟨fuel, hfuel⟩, hid, hmoved⟩ := maybeReset_done hdue hreset hadvances
        refine ⟨_, ⟨fuel, ?_⟩, .saved hsub hdone hid hmoved⟩
        simp [resetDueSubscription, hplan, hget, hdue, hfuel, hdone, counted]
      · simp [resetItem, hplan, hreset, hadvances] at hitem
    · have hkept : db.resetItem zone now sub = .kept := by
        simp [resetItem, hplan, hreset]
      obtain ⟨fuel, hfuel⟩ := maybeReset_kept hdue hreset
      refine ⟨db, ⟨fuel, ?_⟩, .idle (by simp [hkept])⟩
      simp [resetDueSubscription, hplan, hget, hdue, hfuel, hkept, counted, Table.save_self _ hget]

theorem stable_resetEach (batch : List UserSubscription) (db : SubscriptionDB) :
    Stable fun fuel => resetEach zone fuel now batch db := by
  induction batch generalizing db with
  | nil => exact .const _
  | cons sub rest ih =>
    exact (stable_resetDueSubscription sub).bind fun result => (ih result.1).map _

theorem resetEach_spec (zone now : Int) (db : SubscriptionDB) {batch : List UserSubscription}
    (hdue : ∀ sub ∈ batch, sub ∈ db.dueSubscriptions now) (hnodup : batch.Nodup) :
    (.hung ∈ batch.map (db.resetItem zone now) → ∀ fuel, resetEach zone fuel now batch db = none) ∧
    (.hung ∉ batch.map (db.resetItem zone now) →
      ∃ db', Returns (fun fuel => resetEach zone fuel now batch db)
          (db', (batch.map (db.resetItem zone now)).countP counted) ∧
        Swept zone now db db' batch) := by
  induction batch generalizing db with
  | nil => exact ⟨by simp, fun _ => ⟨db, ⟨0, rfl⟩, .refl⟩⟩
  | cons sub rest ih =>
    obtain ⟨hnew, hrest⟩ := nodup_cons.mp hnodup
    have hsub := hdue sub mem_cons_self
    by_cases hitem : db.resetItem zone now sub = .hung
    · refine ⟨fun _ fuel => ?_, fun h => absurd (by simp [hitem]) h⟩
      rw [resetEach, resetDueSubscription_hung hsub hitem, Option.bind_none]
    obtain ⟨db', hreturns, hswept⟩ := resetDueSubscription_swept hsub hitem
    -- the later rows of the batch are still due
    have hlater : ∀ row ∈ rest, row ∈ db'.dueSubscriptions now := by
      intro row hrow
      have hne : row ≠ sub := fun h => hnew (h ▸ hrow)
      rw [hswept.due, mem_filter]
      exact ⟨hdue row (mem_cons_of_mem _ hrow), by simp [hne]⟩
    obtain ⟨hhung, hends⟩ := ih db' hlater hrest
    rw [resetItem_congr hswept.plans] at hhung hends
    rw [map_cons, mem_cons, countP_cons]
    constructor
    · rintro (hfirst | hmem) fuel
      · exact absurd hfirst.symm hitem
      · cases hone : resetDueSubscription zone fuel now db sub with
        | none => rw [resetEach, hone, Option.bind_none]
        | some =>
          obtain rfl := Returns.unique (stable_resetDueSubscription sub) hreturns ⟨fuel, hone⟩
          simp [resetEach, hone, hhung hmem fuel]
    · intro hnone
      obtain ⟨db'', hreturns', hswept'⟩ := hends fun hmem => hnone (.inr hmem)
      refine ⟨db'', ?_, hswept.cons hswept'⟩
      refine (returns_bind_iff (stable_resetDueSubscription sub)
        fun result => (stable_resetEach rest result.1).map _).mpr ⟨_, hreturns, ?_⟩
      obtain ⟨fuel, hfuel⟩ := hreturns'
      exact ⟨fuel, by simp [hfuel, Nat.add_comm]⟩

theorem resetDueSubscriptions_batch (zone : Int) (fuel : Nat) (db : SubscriptionDB) (now : Int) :
    resetDueSubscriptions zone fuel db now subscriptionResetBatchSize =
      resetEach zone fuel now ((db.dueSubscriptions now).take subscriptionResetBatchSize) db := by
  simp [resetDueSubscriptions, subscriptionResetBatchSize]

theorem resetDueSubscriptions_spec (zone : Int) (db : SubscriptionDB) (now : Int) :
    (.hung ∈ (db.resetItems zone now).take subscriptionResetBatchSize →
      ∀ fuel, resetDueSubscriptions zone fuel db now subscriptionResetBatchSize = none) ∧
    (.hung ∉ (db.resetItems zone now).take subscriptionResetBatchSize →
      ∃ db', Returns
          (fun fuel => resetDueSubscriptions zone fuel db now subscriptionResetBatchSize)
          (db', ((db.resetItems zone now).take subscriptionResetBatchSize).countP counted) ∧
        db'.resetItems zone now = sweepRest subscriptionResetBatchSize (db.resetItems zone now) ∧
        db'.resetDueCount now +
            ((db.resetItems zone now).take subscriptionResetBatchSize).count .done =
          db.resetDueCount now) := by
  have hspec := resetEach_spec zone now db
    (fun sub hsub => mem_of_mem_take hsub)
    (nodup_dueSubscriptions.sublist (take_sublist subscriptionResetBatchSize _))
  simp only [resetDueSubscriptions_batch, resetItems, ← map_take]
  refine ⟨hspec.1, fun hnone => ?_⟩
  obtain ⟨db', hreturns, hswept⟩ := hspec.2 hnone
  refine ⟨db', hreturns, ?_, hswept.count⟩
  rw [hswept.due, resetItem_congr hswept.plans]
  exact map_filter_take nodup_dueSubscriptions _ _

end Batch

/-! ## The whole task -/

theorem stable_resetDueSubscriptions {zone now : Int} {db : SubscriptionDB} :
    Stable fun fuel => resetDueSubscriptions zone fuel db now subscriptionResetBatchSize := by
  simp only [resetDueSubscriptions_batch]
  exact stable_resetEach _ db

private theorem resetDueLoop_ends_iff (zone now : Int) (db : SubscriptionDB) :
    Ends (resetDueLoop zone now db) ↔
      Ends (sweep subscriptionResetBatchSize (db.resetItems zone now)) := by
  refine ends_loopFrom_iff_of_simulation
    (fun db => stable_resetDueSubscriptions.map fullBatch)
    (stable_sweepBatch subscriptionResetBatchSize) (·.resetItems zone now) ?_ ?_ db
  · intro db next hnext
    obtain ⟨hhung, hends⟩ := resetDueSubscriptions_spec zone db now
    by_cases hnone : .hung ∈ (db.resetItems zone now).take subscriptionResetBatchSize
    · obtain ⟨fuel, hfuel⟩ := hnext
      simp [hhung hnone fuel] at hfuel
    obtain ⟨db', hreturns, hitems, -⟩ := hends hnone
    obtain rfl := Returns.unique (stable_resetDueSubscriptions.map fullBatch)
      (hreturns.map fullBatch) hnext
    refine ⟨0, ?_⟩
    simp only [sweepBatch, if_neg hnone, fullBatch_again]
    rw [← hitems]
    rfl
  · rintro db ⟨next, fuel, hnext⟩
    by_cases hnone : .hung ∈ (db.resetItems zone now).take subscriptionResetBatchSize
    · simp [sweepBatch, hnone] at hnext
    · obtain ⟨db', hreturns, -⟩ := (resetDueSubscriptions_spec zone db now).2 hnone
      exact ⟨_, hreturns.map fullBatch⟩

theorem run_ends_iff {zone now : Int} {db expired : SubscriptionDB}
    (hexpired : Returns (expireLoop now db) expired) :
    Ends (runSubscriptionQuotaResetOnce zone db now) ↔
      ∃ t, SweepSettles subscriptionResetBatchSize 0 (expired.resetItems zone now) t := by
  have hfirst : Stable (expireLoop now db) := stable_loopFrom stable_expireDueSubscriptions db
  have hsecond : ∀ db, Stable (resetDueLoop zone now db) :=
    stable_loopFrom fun db => stable_resetDueSubscriptions.map fullBatch
  calc Ends (runSubscriptionQuotaResetOnce zone db now)
      ↔ Ends (resetDueLoop zone now expired) := ends_bind_iff hfirst hsecond hexpired
    _ ↔ Ends (sweep subscriptionResetBatchSize (expired.resetItems zone now)) :=
        resetDueLoop_ends_iff zone now expired
    _ ↔ ∃ t, SweepSettles subscriptionResetBatchSize 0 (expired.resetItems zone now) t :=
        ends_sweep_iff (Nat.zero_le _) _

/--
The expiry loop ends in every state.  The reset loop ends exactly when a batch
comes that is not full before 300 rows that do not move, or one whose reset
does not return, stand in the way; if every plan moves its reset times, exactly
when fewer than 300 due rows that do not move come before the first one without
a plan.  A full batch lowers the number of due rows exactly when it moves one.
-/
theorem maintenance_ends_iff (zone now : Int) (db : SubscriptionDB) :
    ∃ expired, Returns (expireLoop now db) expired ∧
      (Ends (runSubscriptionQuotaResetOnce zone db now) ↔
        ∃ t, SweepSettles subscriptionResetBatchSize 0 (expired.resetItems zone now) t) ∧
      ((∀ sub ∈ expired.dueSubscriptions now,
          ∀ plan ∈ expired.getSubscriptionPlanById sub.planId, plan.Advances) →
        (Ends (runSubscriptionQuotaResetOnce zone db now) ↔
          ((expired.resetItems zone now).takeWhile fun item =>
            decide (item ≠ .skipped)).count .kept < subscriptionResetBatchSize)) ∧
      ∀ fuel queue after n,
        resetDueSubscriptions zone fuel queue now subscriptionResetBatchSize = some (after, n) →
        (after.resetDueCount now < queue.resetDueCount now ↔
          .done ∈ (queue.resetItems zone now).take subscriptionResetBatchSize) := by
  obtain ⟨expired, hexpired⟩ := expireLoop_ends now db
  refine ⟨expired, hexpired, run_ends_iff hexpired, ?_, ?_⟩
  · intro hplans
    have hnone : .hung ∉ expired.resetItems zone now := by
      intro hmem
      obtain ⟨sub, hsub, hitem⟩ := mem_map.mp hmem
      unfold resetItem at hitem
      cases hplan : expired.getSubscriptionPlanById sub.planId with
      | none => simp [hplan] at hitem
      | some plan =>
        have hadvances := hplans sub hsub plan hplan
        simp only [hplan, hadvances, if_true] at hitem
        split at hitem <;> contradiction
    rw [run_ends_iff hexpired, exists_sweepSettles_iff_count (Nat.zero_le _) hnone, Nat.zero_add]
  · intro fuel queue after n hcall
    obtain ⟨hhung, hends⟩ := resetDueSubscriptions_spec zone queue now
    by_cases hnone : .hung ∈ (queue.resetItems zone now).take subscriptionResetBatchSize
    · rw [hhung hnone fuel] at hcall
      contradiction
    · obtain ⟨db', hreturns, -, hcount⟩ := hends hnone
      obtain ⟨rfl, -⟩ := Prod.mk.inj (Returns.unique
        stable_resetDueSubscriptions hreturns ⟨fuel, hcall⟩)
      rw [← count_pos_iff]
      omega

/-! ## Two states in which the task does not end -/

def dueRow (id : Int) : UserSubscription :=
  { id := id, userId := 7, planId := 2, amountTotal := 100, amountUsed := 0
    startTime := 1800000000, endTime := 1900000000, status := .active, source := "order"
    lastResetTime := 1800000000, nextResetTime := 1800000000, upgradeGroup := ""
    prevUserGroup := "" }

def resetPlan (period : String) (customSeconds : Int) : SubscriptionPlan :=
  { id := 2, durationUnit := .day, durationValue := 30, customSeconds := 0
    maxPurchasePerUser := 0, upgradeGroup := "", totalAmount := 100
    quotaResetPeriod := period, quotaResetCustomSeconds := customSeconds }

def dueRows (count : Nat) (plan : SubscriptionPlan) : SubscriptionDB where
  subs :=
    { rows := (List.range count).map fun i : Nat => dueRow i
      nodup := by
        rw [map_map]
        exact nodup_range.map fun _ _ h => Int.ofNat.inj h }
  records := fun _ => none
  plans := fun _ => some plan
  groups := fun _ => "default"

theorem dueRows_expireLoop (count : Nat) (plan : SubscriptionPlan) :
    Returns (expireLoop 1850000000 (dueRows count plan)) (dueRows count plan) := by
  refine (returns_loopFrom_iff stable_expireDueSubscriptions).mpr ⟨_, ⟨0, rfl⟩, ?_⟩
  have hnone : (dueRows count plan).subs.rows.filter (·.due 1850000000) = [] := by
    rw [filter_eq_nil_iff]
    intro sub hsub
    obtain ⟨i, -, rfl⟩ := mem_map.mp hsub
    simp [dueRow, due]
  have hidle : expireDueSubscriptions (dueRows count plan) 1850000000
      subscriptionResetBatchSize = (dueRows count plan, 0) := by
    simp only [expireDueSubscriptions, hnone]
    rfl
  simp [hidle, fullBatch]

private theorem dueRows_resetItems (count : Nat) (plan : SubscriptionPlan) :
    (dueRows count plan).resetItems 0 1850000000 =
      List.replicate count ((dueRows count plan).resetItem 0 1850000000 (dueRow 0)) := by
  have hrows : (dueRows count plan).dueSubscriptions 1850000000 =
      (List.range count).map fun i : Nat => dueRow i := by
    unfold dueSubscriptions
    rw [filter_eq_self.mpr]
    · refine List.Pairwise.insertionSort_eq (pairwise_map.mpr ?_)
      exact pairwise_of_forall fun _ _ => le_refl (1800000000 : Int)
    · intro sub hsub
      obtain ⟨i, -, rfl⟩ := mem_map.mp hsub
      rfl
  rw [resetItems, hrows, eq_replicate_iff]
  refine ⟨by simp, ?_⟩
  intro item hitem
  rw [map_map] at hitem
  obtain ⟨i, -, rfl⟩ := mem_map.mp hitem
  rw [Function.comp_apply]
  rfl

/-- 300 due rows whose plan was changed to never reset are counted as reset again
and again; one row with a custom period that overflows to less than a second
is enough. -/
theorem maintenance_never_ends :
    ¬ Ends (runSubscriptionQuotaResetOnce 0 (dueRows 300 (resetPlan "never" 0)) 1850000000) ∧
    ¬ Ends (runSubscriptionQuotaResetOnce 0
      (dueRows 1 (resetPlan "custom" 18446744074)) 1850000000) := by
  constructor
  · rw [run_ends_iff (dueRows_expireLoop _ _), dueRows_resetItems]
    rw [show (dueRows 300 (resetPlan "never" 0)).resetItem 0 1850000000 (dueRow 0) = .kept by
      decide, ← ends_sweep_iff (Nat.zero_le _)]
    have hstuck := not_ends_sweep_full subscriptionResetBatchSize []
    rw [append_nil] at hstuck
    exact hstuck
  · rw [run_ends_iff (dueRows_expireLoop _ _)]
    rintro ⟨t, ht⟩
    exact not_sweepSettles_hung (by decide) t ht

end NewApi.Subscriptions
