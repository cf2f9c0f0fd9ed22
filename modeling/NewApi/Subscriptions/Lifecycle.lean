import NewApi.Foundation.Fallible
import NewApi.Foundation.Run
import NewApi.Subscriptions.Store

/-!
# Purchase, expiry and cancellation

The functions of `model/subscription.go` that create and end subscriptions and
move the group of their owner along.
-/

namespace NewApi.Subscriptions

open Foundation

def SubscriptionDB.nextId (db : SubscriptionDB) : Int :=
  db.subs.rows.foldr (fun sub largest => max sub.id largest) 0 + 1

variable {db db' : SubscriptionDB} {sub : UserSubscription} {zone userId : Int}
  {plan : SubscriptionPlan}

theorem SubscriptionDB.lt_nextId (h : sub ∈ db.subs.rows) : sub.id < db.nextId := by
  unfold nextId
  generalize db.subs.rows = rows at h
  induction rows with
  | nil => simp at h
  | cons first rest ih =>
    rw [List.foldr_cons]
    rcases List.mem_cons.mp h with rfl | hrest
    · omega
    · have hlater := ih hrest
      omega

def createUserSubscriptionFromPlanTx (zone : Int) (db : SubscriptionDB) (now userId : Int)
    (plan : SubscriptionPlan) (source : String) : Except String SubscriptionDB :=
  if plan.id = 0 then .error "invalid plan"
  else if userId ≤ 0 then .error "invalid user id"
  else if 0 < plan.maxPurchasePerUser ∧ plan.maxPurchasePerUser ≤
      (db.subs.rows.countP fun sub =>
        decide (sub.userId = userId) && decide (sub.planId = plan.id) : Nat) then
    .error "已达到该套餐购买上限"
  else
    match calcPlanEndTime zone now plan with
    | .error message => .error message
    | .ok endUnix =>
      let nextReset := calcNextResetTime zone now plan endUnix
      let upgradeGroup := trimSpace plan.upgradeGroup
      let currentGroup := db.groups userId
      let upgrades := decide (upgradeGroup ≠ "") && decide (currentGroup ≠ upgradeGroup)
      let sub : UserSubscription :=
        { id := db.nextId
          userId := userId
          planId := plan.id
          amountTotal := plan.totalAmount
          amountUsed := 0
          startTime := now
          endTime := endUnix
          status := .active
          source := source
          lastResetTime := if 0 < nextReset then now else 0
          nextResetTime := nextReset
          upgradeGroup := upgradeGroup
          prevUserGroup := if upgrades then currentGroup else "" }
      .ok
        { db with
          subs := db.subs.insert sub fun _ h => (SubscriptionDB.lt_nextId h).ne
          groups :=
            if upgrades then Function.update db.groups userId upgradeGroup else db.groups }

/-- What a purchase adds: one active row under a fresh key, and the group it leads
to if the owner has another one. -/
structure Created (zone : Int) (db : SubscriptionDB) (now userId : Int)
    (plan : SubscriptionPlan) (sub : UserSubscription) (db' : SubscriptionDB) : Prop where
  ends : calcPlanEndTime zone now plan = .ok sub.endTime
  fresh : ∀ old ∈ db.subs.rows, old.id < sub.id
  owner : sub.userId = userId
  active : sub.status = .active
  upgrade : sub.upgradeGroup = trimSpace plan.upgradeGroup
  rows : db'.subs.rows = db.subs.rows ++ [sub]
  moved : sub.upgradeGroup ≠ "" → db.groups userId ≠ sub.upgradeGroup →
    sub.prevUserGroup = db.groups userId ∧
      db'.groups = Function.update db.groups userId sub.upgradeGroup
  kept : sub.upgradeGroup = "" ∨ db.groups userId = sub.upgradeGroup →
    sub.prevUserGroup = "" ∧ db'.groups = db.groups

theorem Created.mem_rows {now : Int} (h : Created zone db now userId plan sub db') :
    ∀ row ∈ db'.subs.rows, row ∈ db.subs.rows ∨ row = sub := by
  intro row hrow
  simpa [h.rows] using hrow

theorem create_created {now : Int} {source : String}
    (h : createUserSubscriptionFromPlanTx zone db now userId plan source = .ok db') :
    ∃ sub, Created zone db now userId plan sub db' ∧ sub.startTime = now ∧
      sub.nextResetTime = calcNextResetTime zone now plan sub.endTime ∧
      sub.lastResetTime = if 0 < sub.nextResetTime then now else 0 := by
  unfold createUserSubscriptionFromPlanTx at h
  rw [ite_error_eq_ok, ite_error_eq_ok, ite_error_eq_ok] at h
  replace h := h.2.2.2
  split at h
  · cases h
  next endUnix hend =>
    dsimp only at h
    generalize hnext : calcNextResetTime zone now plan endUnix = nextReset at h
    generalize hupgrade : trimSpace plan.upgradeGroup = upgradeGroup at h
    generalize hmoves : (decide (upgradeGroup ≠ "") && decide (db.groups userId ≠ upgradeGroup)) =
      upgrades at h
    cases h
    refine ⟨_, ⟨hend, fun old hold => SubscriptionDB.lt_nextId hold, rfl, rfl, hupgrade.symm,
      rfl, ?_, ?_⟩, rfl, hnext.symm, rfl⟩
    · intro hgroup hother
      obtain rfl : upgrades = true := by simpa [← hmoves] using ⟨hgroup, hother⟩
      exact ⟨rfl, rfl⟩
    · intro hsame
      obtain rfl : upgrades = false := by simpa [← hmoves, ← or_iff_not_imp_left] using hsame
      exact ⟨rfl, rfl⟩

def UserSubscription.keepsGroup (userId now : Int) (sub : UserSubscription) : Bool :=
  decide (sub.userId = userId) && decide (sub.status = .active) &&
    decide (now < sub.endTime) && decide (sub.upgradeGroup ≠ "")

/-- The group the user falls back to, or the empty string. -/
def downgradeUserGroupForSubscriptionTx (db : SubscriptionDB) (sub : UserSubscription)
    (now : Int) : Except String (SubscriptionDB × String) :=
  let upgradeGroup := trimSpace sub.upgradeGroup
  if upgradeGroup = "" then .ok (db, "")
  else if sub.userId ≤ 0 then .error "invalid userId"
  else
    let currentGroup := db.groups sub.userId
    if currentGroup ≠ upgradeGroup then .ok (db, "")
    else if db.subs.rows.any fun other =>
        other.keepsGroup sub.userId now && decide (other.id ≠ sub.id) then .ok (db, "")
    else
      let prevGroup := trimSpace sub.prevUserGroup
      if prevGroup = "" ∨ prevGroup = currentGroup then .ok (db, "")
      else
        .ok ({ db with groups := Function.update db.groups sub.userId prevGroup }, prevGroup)

def downgradeMessage (target : String) : String :=
  if target ≠ "" then "用户分组将回退到 " ++ target else ""

def adminInvalidateUserSubscription (db : SubscriptionDB) (userSubscriptionId now : Int) :
    Except String (SubscriptionDB × String) :=
  if userSubscriptionId ≤ 0 then .error "invalid userSubscriptionId"
  else
    match db.subs.get userSubscriptionId with
    | none => .error "record not found"
    | some sub =>
      let cancelled := { sub with status := .cancelled, endTime := now }
      match downgradeUserGroupForSubscriptionTx
          { db with subs := db.subs.save cancelled } cancelled now with
      | .error message => .error message
      | .ok (db, target) => .ok (db, downgradeMessage target)

def adminDeleteUserSubscription (db : SubscriptionDB) (userSubscriptionId now : Int) :
    Except String (SubscriptionDB × String) :=
  if userSubscriptionId ≤ 0 then .error "invalid userSubscriptionId"
  else
    match db.subs.get userSubscriptionId with
    | none => .error "record not found"
    | some sub =>
      match downgradeUserGroupForSubscriptionTx db sub now with
      | .error message => .error message
      | .ok (db, target) =>
        .ok ({ db with subs := db.subs.delete userSubscriptionId }, downgradeMessage target)

def UserSubscription.due (now : Int) (sub : UserSubscription) : Bool :=
  decide (sub.status = .active) && decide (0 < sub.endTime) && decide (sub.endTime ≤ now)

def UserSubscription.expireFor (userId now : Int) (sub : UserSubscription) : UserSubscription :=
  if sub.userId = userId ∧ sub.due now = true then { sub with status := .expired } else sub

theorem UserSubscription.expireFor_id (userId now : Int) (sub : UserSubscription) :
    (sub.expireFor userId now).id = sub.id := by
  unfold expireFor
  split <;> rfl

def fallBackGroup (db : SubscriptionDB) (userId : Int) : SubscriptionDB :=
  match lastBy endTimeOrder (db.subs.rows.filter fun sub =>
      decide (sub.userId = userId) && decide (sub.status = .expired) &&
        decide (sub.upgradeGroup ≠ "")) with
  | none => db
  | some lastExpired =>
    let upgradeGroup := trimSpace lastExpired.upgradeGroup
    let prevGroup := trimSpace lastExpired.prevUserGroup
    if upgradeGroup = "" ∨ prevGroup = "" then db
    else
      let currentGroup := db.groups userId
      if currentGroup ≠ upgradeGroup ∨ currentGroup = prevGroup then db
      else { db with groups := Function.update db.groups userId prevGroup }

theorem fallBackGroup_eq (db : SubscriptionDB) (userId : Int) :
    fallBackGroup db userId = db ∨
      ∃ group, fallBackGroup db userId =
        { db with groups := Function.update db.groups userId group } := by
  unfold fallBackGroup
  split
  · exact .inl rfl
  dsimp only
  split
  · exact .inl rfl
  split
  · exact .inl rfl
  · exact .inr ⟨_, rfl⟩

theorem fallBackGroup_subs (db : SubscriptionDB) (userId : Int) :
    (fallBackGroup db userId).subs = db.subs := by
  rcases fallBackGroup_eq db userId with h | ⟨group, h⟩ <;> rw [h]

def SubscriptionDB.expireRows (db : SubscriptionDB) (userId now : Int) : SubscriptionDB :=
  { db with
    subs := db.subs.update (·.expireFor userId now) (UserSubscription.expireFor_id userId now) }

def expireUser (now : Int) (db : SubscriptionDB) (userId : Int) : SubscriptionDB × Nat :=
  let count := db.subs.rows.countP fun sub => decide (sub.userId = userId) && sub.due now
  let expired := db.expireRows userId now
  if expired.subs.rows.any (·.keepsGroup userId now) then (expired, count)
  else (fallBackGroup expired userId, count)

def expireUsers (now : Int) : List Int → SubscriptionDB → SubscriptionDB × Nat
  | [], db => (db, 0)
  | userId :: rest, db =>
    let (db, count) := expireUser now db userId
    let (db, total) := expireUsers now rest db
    (db, count + total)

def expireDueSubscriptions (db : SubscriptionDB) (now : Int) (limit : Int) : SubscriptionDB × Nat :=
  let limit := if limit ≤ 0 then 200 else limit.toNat
  let subs := ((db.subs.rows.filter (·.due now)).insertionSort endTimeOrder).take limit
  let userIds := ((subs.map (·.userId)).filter fun userId => decide (0 < userId)).dedup
  expireUsers now userIds db

structure Lifecycle where
  db : SubscriptionDB
  clock : Int

inductive LifecycleEvent where
  | purchase (now userId : Int) (plan : SubscriptionPlan) (source : String)
  | expire (now : Int) (limit : Int)
  | invalidate (now userSubscriptionId : Int)
  | delete (now userSubscriptionId : Int)

def LifecycleEvent.now : LifecycleEvent → Int
  | .purchase now .. | .expire now .. | .invalidate now .. | .delete now .. => now

def Lifecycle.step (zone : Int) (s : Lifecycle) (e : LifecycleEvent) : Lifecycle where
  clock := e.now
  db :=
    match e with
    | .purchase now userId plan source =>
      match createUserSubscriptionFromPlanTx zone s.db now userId plan source with
      | .ok db => db
      | .error _ => s.db
    | .expire now limit => (expireDueSubscriptions s.db now limit).1
    | .invalidate now userSubscriptionId =>
      match adminInvalidateUserSubscription s.db userSubscriptionId now with
      | .ok (db, _) => db
      | .error _ => s.db
    | .delete now userSubscriptionId =>
      match adminDeleteUserSubscription s.db userSubscriptionId now with
      | .ok (db, _) => db
      | .error _ => s.db

end NewApi.Subscriptions
