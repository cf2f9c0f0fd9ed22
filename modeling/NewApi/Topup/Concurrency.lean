import NewApi.Foundation.Run
import NewApi.Foundation.Table
import NewApi.Topup.Orders

/-!
# Concurrent completions of one order

The five completing functions on one trade number, from any number of
processes.  The row is read with a `gorm` v1 option that asks for `FOR UPDATE`
and that `gorm` v2 ignores: the read takes no lock and sees the committed row.
`Save` takes the row lock and holds it to the end of the transaction.
-/

namespace NewApi.Topup

open Foundation

inductive TxStage where
  | checked
  | saved
  | credited
  deriving DecidableEq

structure OrderTx where
  caller : Completion
  row : TopUp
  quota : Int
  stage : TxStage

structure OrderWorld where
  order : TopUp
  users : Int → Payer
  txs : Nat → Option OrderTx
  lock : Option Nat
  credits : List Int

open OrderWorld

inductive OrderEvent where
  | read (tx : Nat) (caller : Completion)
  | save (tx : Nat) (now : Int) (ok : Bool)
  | credit (tx : Nat) (ok : Bool)
  | commit (tx : Nat) (ok : Bool)

namespace OrderWorld

def start (order : TopUp) (users : Int → Payer) : OrderWorld :=
  { order := order, users := users, txs := fun _ => none, lock := none, credits := [] }

section

variable (s : OrderWorld)

def put (tx : Nat) (t : OrderTx) : OrderWorld :=
  { s with txs := Function.update s.txs tx (some t) }

def close (tx : Nat) : OrderWorld :=
  { s with
    txs := Function.update s.txs tx none
    lock := if s.lock = some tx then none else s.lock }

def committing : OrderEvent → Option OrderTx
  | .commit tx true => (s.txs tx).filter fun t => t.stage = .credited
  | _ => none

def publish (t : OrderTx) : OrderWorld :=
  { s with
    order := t.row
    users := Function.update s.users t.row.userId
      (t.caller.creditUser t.quota (s.users t.row.userId))
    credits := s.credits ++ [t.quota] }

def step (quotaPerUnit : ℚ) (s : OrderWorld) (e : OrderEvent) : OrderWorld :=
  match e with
  | .read tx caller =>
    match s.txs tx, caller.verdict quotaPerUnit s.order with
    | none, .credit quota => s.put tx ⟨caller, s.order, quota, .checked⟩
    | _, _ => s
  | .save tx now ok =>
    match s.txs tx with
    | none => s
    | some t =>
      -- a second writer waits for the row lock
      if t.stage ≠ .checked ∨ s.lock ≠ none then s
      else if ok = true then
        { s.put tx { t with row := t.row.complete now, stage := .saved } with lock := some tx }
      else s.close tx
  | .credit tx ok =>
    match s.txs tx with
    | none => s
    | some t =>
      if t.stage ≠ .saved then s
      else if ok = true ∧ Fits64 ((s.users t.row.userId).quota + t.quota) then
        s.put tx { t with stage := .credited }
      else s.close tx
  | .commit tx _ =>
    match s.txs tx with
    | none => s
    | some t =>
      if t.stage ≠ .credited then s
      else
        match s.committing e with
        | some t => (s.close tx).publish t
        | none => s.close tx

structure CreditedAtMostOnce (first s : OrderWorld) : Prop where
  once : s.credits.length ≤ 1
  quota : ∀ id, (s.users id).quota =
    (first.users id).quota + if id = first.order.userId then s.credits.sum else 0

def FindsPending (e : OrderEvent) : Prop :=
  (s.committing e).isSome = true → s.order.status = .pending

end

instance (s : OrderWorld) (e : OrderEvent) : Decidable (s.FindsPending e) := by
  unfold FindsPending
  infer_instance

end OrderWorld

structure OrderTx.Sound (userId : Int) (t : OrderTx) : Prop where
  user : t.row.userId = userId
  status : t.stage ≠ .checked → t.row.status = .success

namespace OrderWorld

variable (quotaPerUnit : ℚ) {s : OrderWorld} {e : OrderEvent} {t : OrderTx} {userId : Int}

private theorem committing_spec (h : s.committing e = some t) :
    ∃ tx, e = .commit tx true ∧ s.txs tx = some t ∧ t.stage = .credited := by
  unfold committing at h
  split at h
  next tx =>
    obtain ⟨htx, hstage⟩ := Option.filter_eq_some_iff.mp h
    exact ⟨tx, rfl, htx, by simpa using hstage⟩
  next => contradiction

theorem step_committing (h : s.committing e = some t) :
    ∃ tx, s.txs tx = some t ∧ t.stage = .credited ∧
      step quotaPerUnit s e = (s.close tx).publish t := by
  obtain ⟨tx, rfl, htx, hstage⟩ := committing_spec h
  refine ⟨tx, htx, hstage, ?_⟩
  simp [step, htx, hstage, h]

theorem step_cases (h : s.committing e = none) :
    step quotaPerUnit s e = s ∨
    (∃ tx caller quota, e = .read tx caller ∧ s.txs tx = none ∧
      caller.verdict quotaPerUnit s.order = .credit quota ∧
      step quotaPerUnit s e = s.put tx ⟨caller, s.order, quota, .checked⟩) ∨
    (∃ tx now t, s.txs tx = some t ∧ t.stage = .checked ∧
      step quotaPerUnit s e =
        { s.put tx { t with row := t.row.complete now, stage := .saved } with lock := some tx }) ∨
    (∃ tx t, s.txs tx = some t ∧ t.stage = .saved ∧
      step quotaPerUnit s e = s.put tx { t with stage := .credited }) ∨
    ∃ tx, step quotaPerUnit s e = s.close tx := by
  cases e with
  | read tx caller =>
    simp only [step]
    split
    next quota htx hverdict => exact .inr (.inl ⟨tx, caller, quota, rfl, htx, hverdict, rfl⟩)
    next => exact .inl rfl
  | save tx now =>
    simp only [step]
    split
    next => exact .inl rfl
    next t htx =>
      split_ifs with hwait hok
      · exact .inl rfl
      · have hstage : t.stage = .checked := by simpa using fun h => hwait (.inl h)
        exact .inr (.inr (.inl ⟨tx, now, t, htx, hstage, rfl⟩))
      · exact .inr (.inr (.inr (.inr ⟨tx, rfl⟩)))
  | credit tx =>
    simp only [step]
    split
    next => exact .inl rfl
    next t htx =>
      split_ifs with hstage hok
      · exact .inl rfl
      · exact .inr (.inr (.inr (.inl ⟨tx, t, htx, not_not.mp hstage, rfl⟩)))
      · exact .inr (.inr (.inr (.inr ⟨tx, rfl⟩)))
  | commit tx =>
    simp only [step, h]
    split
    next => exact .inl rfl
    next t htx =>
      split_ifs with hstage
      · exact .inl rfl
      · exact .inr (.inr (.inr (.inr ⟨tx, rfl⟩)))

private theorem step_visible (h : s.committing e = none) :
    (step quotaPerUnit s e).order = s.order ∧ (step quotaPerUnit s e).users = s.users ∧
      (step quotaPerUnit s e).credits = s.credits := by
  rcases step_cases quotaPerUnit h with
    h | ⟨_, _, _, -, -, -, h⟩ | ⟨_, _, _, -, -, h⟩ | ⟨_, _, -, -, h⟩ | ⟨_, h⟩ <;>
    rw [h] <;> exact ⟨rfl, rfl, rfl⟩

def TxsSound (s : OrderWorld) (userId : Int) : Prop := ∀ j t, s.txs j = some t → t.Sound userId

section

variable (hs : s.TxsSound userId)
include hs

theorem TxsSound.put (ht : t.Sound userId) (tx : Nat) : (s.put tx t).TxsSound userId :=
  forall_update_some ht fun j t' _ hj => hs j t' hj

theorem TxsSound.close (tx : Nat) : (s.close tx).TxsSound userId := forall_update_none hs

theorem txsSound_step (howner : s.order.userId = userId) (e : OrderEvent) :
    (step quotaPerUnit s e).TxsSound userId := by
  cases hc : s.committing e with
  | some =>
    obtain ⟨tx, -, -, hstep⟩ := step_committing quotaPerUnit hc
    rw [hstep]
    exact hs.close tx
  | none =>
    rcases step_cases quotaPerUnit hc with h | ⟨tx, caller, quota, -, -, -, h⟩ |
      ⟨tx, now, t, htx, hstage, h⟩ | ⟨tx, t, htx, hstage, h⟩ | ⟨tx, h⟩ <;> rw [h]
    · exact hs
    · exact hs.put (t := ⟨caller, s.order, quota, .checked⟩) ⟨howner, fun hne => absurd rfl hne⟩ tx
    · exact hs.put (t := { t with row := t.row.complete now, stage := .saved })
        ⟨(hs tx t htx).user, fun _ => rfl⟩ tx
    · exact hs.put (t := { t with stage := .credited })
        ⟨(hs tx t htx).user, fun _ => (hs tx t htx).status (by simp [hstage])⟩ tx
    · exact hs.close tx

end

structure Inv (first s : OrderWorld) : Prop where
  owner : s.order.userId = first.order.userId
  txs : s.TxsSound first.order.userId
  credited : (s.order.status = .pending ∧ s.credits = []) ∨
    (s.order.status = .success ∧ s.credits.length = 1)
  quota : ∀ id, (s.users id).quota =
    (first.users id).quota + if id = first.order.userId then s.credits.sum else 0

theorem inv_start {order : TopUp} (hpending : order.status = .pending) (users : Int → Payer) :
    Inv (start order users) (start order users) where
  owner := rfl
  txs _ _ h := nomatch h
  credited := .inl ⟨hpending, rfl⟩
  quota id := by
    show (users id).quota = (users id).quota + if id = order.userId then 0 else 0
    rw [ite_self, add_zero]

variable {first : OrderWorld}

theorem Inv.law (h : Inv first s) : CreditedAtMostOnce first s := by
  refine ⟨?_, h.quota⟩
  rcases h.credited with ⟨-, hnil⟩ | ⟨-, hone⟩
  · simp [hnil]
  · omega

private theorem inv_step (h : Inv first s) (hok : s.FindsPending e) :
    Inv first (step quotaPerUnit s e) := by
  cases hc : s.committing e with
  | none =>
    obtain ⟨horder, husers, hcredits⟩ := step_visible quotaPerUnit hc
    refine ⟨horder ▸ h.owner, txsSound_step quotaPerUnit h.txs h.owner e, ?_, ?_⟩
    · rw [horder, hcredits]
      exact h.credited
    · rw [husers, hcredits]
      exact h.quota
  | some t =>
    obtain ⟨tx, htx, hstage, hstep⟩ := step_committing quotaPerUnit hc
    have ht := h.txs tx t htx
    have hnil : s.credits = [] := by
      rcases h.credited with ⟨-, hnil⟩ | ⟨hstatus, -⟩
      · exact hnil
      · simp [hok (by simp [hc])] at hstatus
    refine ⟨?_, txsSound_step quotaPerUnit h.txs h.owner e, ?_, ?_⟩
    · rw [hstep]
      exact ht.user
    · rw [hstep]
      exact .inr ⟨ht.status (by simp [hstage]), by simp [publish, close, hnil]⟩
    · intro id
      rw [hstep]
      have hid := h.quota id
      by_cases hu : id = first.order.userId
      · subst hu
        simp [publish, close, ht.user, hnil] at hid ⊢
        omega
      · simp [publish, close, ht.user, hu] at hid ⊢
        exact hid

private theorem findsPending_of_law (h : Inv first s)
    (hlaw : CreditedAtMostOnce first (step quotaPerUnit s e)) : s.FindsPending e := by
  intro hc
  obtain ⟨t, ht⟩ := Option.isSome_iff_exists.mp hc
  obtain ⟨tx, -, -, hstep⟩ := step_committing quotaPerUnit ht
  rcases h.credited with ⟨hpending, -⟩ | ⟨-, hone⟩
  · exact hpending
  have honce := hlaw.once
  rw [hstep] at honce
  simp [publish, close, hone] at honce

end OrderWorld

/--
A pending order is credited at most once throughout a run exactly when every
transaction that commits finds the order still pending.  Nothing in the code
enforces this: two transactions may both read the pending row.
-/
theorem topUp_credited_at_most_once_iff (quotaPerUnit : ℚ) (order : TopUp)
    (users : Int → Payer) (hpending : order.status = .pending) (events : List OrderEvent) :
    (∀ before after, events = before ++ after →
      (start order users).CreditedAtMostOnce (run (step quotaPerUnit) (start order users) before)) ↔
      Admits (step quotaPerUnit) OrderWorld.FindsPending (start order users) events := by
  have hany : Admits (step quotaPerUnit) (fun _ _ => True) (start order users) events :=
    admits_of_forall (fun _ _ => trivial) _ events
  refine forall_prefix_iff_admits ?_ ?_ ?_ (inv_start hpending users) hany
  · intro s h
    exact h.law
  · intro s e h _ hok
    exact inv_step quotaPerUnit h hok
  · intro s e h _ hlaw
    exact findsPending_of_law quotaPerUnit h hlaw

def stripeOrder : TopUp :=
  { creemOrder with
    amount := 1, money := 1, paymentMethod := "stripe", paymentProvider := .stripe }

def rechargeRun (tx : Nat) : List OrderEvent :=
  [.read tx (.recharge "cus_1"), .save tx 10 true, .credit tx true, .commit tx true]

theorem topUp_credited_at_most_once_retry :
    (start stripeOrder fun _ => emptyPayer).CreditedAtMostOnce
      (run (step 500000) (start stripeOrder fun _ => emptyPayer)
        (rechargeRun 0 ++ rechargeRun 1)) :=
  (topUp_credited_at_most_once_iff 500000 stripeOrder (fun _ => emptyPayer) rfl
    (rechargeRun 0 ++ rechargeRun 1)).mpr (by decide +kernel) _ [] (by simp)

/-- The webhook and the administrator both read the pending order. -/
theorem topUp_credited_twice_counterexample :
    ¬ (start stripeOrder fun _ => emptyPayer).CreditedAtMostOnce
      (run (step 500000) (start stripeOrder fun _ => emptyPayer)
        (.read 1 .manualCompleteTopUp :: rechargeRun 0 ++
          [.save 1 11 true, .credit 1 true, .commit 1 true])) := by
  intro h
  exact absurd h.once (by decide +kernel)

end NewApi.Topup
