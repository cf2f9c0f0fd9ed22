import NewApi.Subscriptions.Maintenance
import NewApi.Topup.Orders

/-!
# Orders and purchases at the same time

`CompleteSubscriptionOrder` reads an order, counts the subscriptions of the user, creates one more
and saves the order, in one transaction without a row lock; other purchases of the plan count and
create in transactions of their own.  All of them are for one user and one plan.
-/

namespace NewApi.Subscriptions

open Foundation List
open Topup (TopUpStatus)

structure SubscriptionOrder where
  paymentMethod : String
  paymentProvider : String
  status : TopUpStatus
  completeTime : Int := 0
  providerPayload : String := ""

structure OrderDB where
  subscriptions : SubscriptionDB
  orders : String → Option SubscriptionOrder

/-- A purchase without an order is one by an administrator or from the balance. -/
inductive PurchaseCall where
  | complete (tradeNo providerPayload expectedPaymentProvider actualPaymentMethod : String)
      (now : Int)
  | purchase (source : String) (now : Int)

structure PurchaseTx where
  order : Option (String × SubscriptionOrder) := none
  providerPayload : String := ""
  actualPaymentMethod : String := ""
  source : String
  now : Int
  created : Bool := false

def PurchaseTx.complete (t : PurchaseTx) (o : SubscriptionOrder) : SubscriptionOrder :=
  { o with
    status := .success
    completeTime := t.now
    providerPayload := if t.providerPayload ≠ "" then t.providerPayload else o.providerPayload
    paymentMethod :=
      if t.actualPaymentMethod ≠ "" then t.actualPaymentMethod else o.paymentMethod }

def readOrder (call : PurchaseCall) (db : OrderDB) : Option PurchaseTx :=
  match call with
  | .purchase source now => some { source := source, now := now }
  | .complete tradeNo payload provider method now =>
    if tradeNo = "" then none
    else do
      let o ← db.orders tradeNo
      if provider ≠ "" ∧ o.paymentProvider ≠ provider then none
      else if o.status ≠ .pending then none
      else some {
        order := some (tradeNo, o)
        providerPayload := payload
        actualPaymentMethod := method
        source := "order"
        now := now }

section

variable (zone userId : Int) (plan : SubscriptionPlan)

def PurchaseTx.insert (t : PurchaseTx) (db : SubscriptionDB) : SubscriptionDB :=
  (createUserSubscriptionFromPlanTx zone db t.now userId { plan with maxPurchasePerUser := 0 }
    t.source).toOption.getD db

def purchases : TxProtocol PurchaseCall OrderDB PurchaseTx where
  read := readOrder
  next t db :=
    match createUserSubscriptionFromPlanTx zone db.subscriptions t.now userId plan t.source with
    | .ok _ => some { t with created := true }
    | .error _ => none
  ready t := t.created
  write t db :=
    { subscriptions := t.insert zone userId plan db.subscriptions
      orders := match t.order with
        | some (tradeNo, o) => Function.update db.orders tradeNo (some (t.complete o))
        | none => db.orders }

def OrderDB.purchased (db : OrderDB) : Nat :=
  db.subscriptions.subs.rows.countP fun sub => sub.userId = userId ∧ sub.planId = plan.id

def OrderDB.Pending (db : OrderDB) (tradeNo : String) : Prop :=
  (db.orders tradeNo).map SubscriptionOrder.status = some .pending

/-- The order is still pending, and there is room for one more subscription. -/
def FindsRoom (t : PurchaseTx) (db : OrderDB) : Prop :=
  (∀ order ∈ t.order, db.Pending order.1) ∧
    (0 < plan.maxPurchasePerUser → db.purchased userId plan < plan.maxPurchasePerUser)

instance (t : PurchaseTx) (db : OrderDB) : Decidable (FindsRoom userId plan t db) := by
  unfold FindsRoom OrderDB.Pending
  infer_instance

def createdFor (log : List PurchaseTx) (tradeNo : String) : Nat :=
  log.countP fun t => t.order.map Prod.fst = some tradeNo

structure OneEach (db : OrderDB) (log : List PurchaseTx) : Prop where
  orders : ∀ tradeNo, createdFor log tradeNo ≤ 1
  limit : 0 < plan.maxPurchasePerUser → db.purchased userId plan ≤ plan.maxPurchasePerUser

private theorem purchased_insert_le (t : PurchaseTx) (db : OrderDB) :
    ((purchases zone userId plan).write t db).purchased userId plan ≤
      db.purchased userId plan + 1 := by
  unfold OrderDB.purchased
  dsimp only [purchases, PurchaseTx.insert]
  cases hcreate : createUserSubscriptionFromPlanTx zone db.subscriptions t.now userId
      { plan with maxPurchasePerUser := 0 } t.source with
  | error => exact Nat.le_succ _
  | ok db' =>
    obtain ⟨sub, hcreated, -⟩ := create_created hcreate
    change countP _ db'.subs.rows ≤ _
    rw [hcreated.rows, countP_append]
    have hone := countP_le_length (l := [sub])
      (p := fun sub => decide (sub.userId = userId ∧ sub.planId = plan.id))
    exact Nat.add_le_add_left hone _

theorem createdFor_concat (log : List PurchaseTx) (t : PurchaseTx) (tradeNo : String) :
    createdFor (log ++ [t]) tradeNo =
      createdFor log tradeNo + if t.order.map Prod.fst = some tradeNo then 1 else 0 := by
  rw [createdFor, countP_append, countP_singleton]
  by_cases hsame : t.order.map Prod.fst = some tradeNo <;> simp [createdFor, hsame]

end

/-- An order creates at most one subscription and the limit of the plan is kept if every transaction
that commits finds its order still pending and room for one more.  Nothing in the code enforces
this. -/
theorem order_one_subscription (zone userId : Int) (plan : SubscriptionPlan) (db : OrderDB)
    (hlimit : 0 < plan.maxPurchasePerUser → db.purchased userId plan ≤ plan.maxPurchasePerUser)
    (events : List (TxEvent PurchaseCall))
    (h : Admits (purchases zone userId plan).step
      ((purchases zone userId plan).CommitsValid (FindsRoom userId plan)) { db := db } events) :
    OneEach userId plan (run (purchases zone userId plan).step { db := db } events).db
      (run (purchases zone userId plan).step { db := db } events).log := by
  have hall := TxProtocol.invariant (I := fun db log => OneEach userId plan db log ∧
    ∀ tradeNo, db.Pending tradeNo → createdFor log tradeNo = 0) ?_ ?_ h
  · exact hall.1
  · rintro db log t ⟨hone, hpending⟩ - ⟨hfinds, hroom⟩
    refine ⟨⟨?_, ?_⟩, ?_⟩
    · intro tradeNo
      have hold := hone.orders tradeNo
      rw [createdFor_concat]
      cases horder : t.order with
      | none => simpa using hold
      | some order =>
        by_cases hsame : order.1 = tradeNo
        · have hzero := hpending tradeNo (hsame ▸ hfinds order horder)
          simp [hsame, hzero]
        · simpa [hsame] using hold
    · intro hmax
      have hbefore := hroom hmax
      have hle := purchased_insert_le zone userId plan t db
      omega
    · intro tradeNo hstill
      rw [createdFor_concat]
      dsimp only [purchases, OrderDB.Pending] at hstill
      cases horder : t.order with
      | none =>
        rw [horder] at hstill
        simpa using hpending tradeNo hstill
      | some order =>
        rw [horder] at hstill
        dsimp only at hstill
        by_cases hsame : order.1 = tradeNo
        · rw [hsame, Function.update_self] at hstill
          cases hstill
        · rw [Function.update_of_ne (Ne.symm hsame)] at hstill
          simpa [hsame] using hpending tradeNo hstill
  · exact ⟨⟨fun tradeNo => Nat.zero_le 1, hlimit⟩, fun tradeNo _ => rfl⟩

def soloPlan : SubscriptionPlan := { resetPlan "never" 0 with maxPurchasePerUser := 1 }

def paidOrder : OrderDB where
  subscriptions := dueRows 0 soloPlan
  orders tradeNo := if tradeNo = "sub_1" then some ⟨"alipay", "epay", .pending, 0, ""⟩ else none

def webhook : PurchaseCall := .complete "sub_1" "" "epay" "" 1700000000

theorem order_one_subscription_repeated :
    OneEach 7 soloPlan
      (run (purchases 0 7 soloPlan).step { db := paidOrder }
        [.read 0 webhook, .next 0, .commit 0, .read 1 webhook, .next 1, .commit 1]).db
      (run (purchases 0 7 soloPlan).step { db := paidOrder }
        [.read 0 webhook, .next 0, .commit 0, .read 1 webhook, .next 1, .commit 1]).log := by
  apply order_one_subscription
  · decide
  · decide +kernel

/-- Two webhooks complete one order: both transactions read the pending order and count no
subscription before one of them commits. -/
theorem order_one_subscription_counterexample :
    ∃ s : TxWorld OrderDB PurchaseTx, s = run (purchases 0 7 soloPlan).step { db := paidOrder }
        [.read 0 webhook, .next 0, .read 1 webhook, .next 1, .commit 0, .commit 1] ∧
      createdFor s.log "sub_1" = 2 ∧ s.db.purchased 7 soloPlan = 2 := by
  refine ⟨_, rfl, ?_⟩
  decide +kernel

end NewApi.Subscriptions
