import NewApi.Foundation.Fallible
import NewApi.Foundation.Run
import NewApi.Subscriptions.Store

/-!
# Refunding a pre-consumed subscription

`RefundSubscriptionPreConsume` lowers `amount_used` in one transaction and
marks the record in another.  An attempt that commits the first and fails in
the second leaves a record that the next attempt refunds again.
-/

namespace NewApi.Subscriptions

open Foundation

section

def refundAttempt (requestId : String) (db : SubscriptionDB) (faults : RefundFaults) :
    SubscriptionDB := (refundSubscriptionPreConsume db requestId faults).1

/-- A record that is not refunded and the row it was charged to. -/
structure Unrefunded (db : SubscriptionDB) (requestId : String) (record : PreConsumeRecord)
    (sub : UserSubscription) : Prop where
  request : trimSpace requestId ≠ ""
  stored : db.records requestId = some record
  status : record.status = .consumed
  amount : 0 < record.preConsumed
  positive : 0 < record.userSubscriptionId
  row : db.subs.get record.userSubscriptionId = some sub

/-- The row still holds the amount. -/
structure Consumed (db : SubscriptionDB) (requestId : String) (record : PreConsumeRecord)
    (sub : UserSubscription) : Prop extends Unrefunded db requestId record sub where
  used : record.preConsumed ≤ sub.amountUsed
  total : 0 < sub.amountTotal → sub.amountUsed ≤ sub.amountTotal

def RefundedOnce (requestId : String) (record : PreConsumeRecord) (sub : UserSubscription)
    (db : SubscriptionDB) : Prop :=
  ∃ row stored, db.subs.get record.userSubscriptionId = some row ∧
    db.records requestId = some stored ∧
    sub.amountUsed - row.amountUsed ≤ record.preConsumed ∧
    (sub.amountUsed - row.amountUsed = record.preConsumed ↔ stored.status = .refunded)

/-- The total of the row admits what is left after the amount is given back. -/
abbrev UserSubscription.Refundable (sub : UserSubscription) (amount : Int) : Prop :=
  0 < sub.amountTotal → sub.usedAfter (-amount) ≤ sub.amountTotal

/-- While the record is not refunded, its mark is saved with the balance if the row
holds the amount, and is not if the row holds less. -/
def MarksRefund (requestId : String) (db : SubscriptionDB) (faults : RefundFaults) : Prop :=
  ∀ record ∈ db.records requestId, record.status = .consumed →
    ∀ sub ∈ db.subs.get record.userSubscriptionId, sub.Refundable record.preConsumed →
      faults.findRecord = false → faults.postConsume = false →
        (faults.saveRecord = false ↔ record.preConsumed ≤ sub.amountUsed)

instance (requestId : String) (db : SubscriptionDB) (faults : RefundFaults) :
    Decidable (MarksRefund requestId db faults) := by
  unfold MarksRefund
  infer_instance

variable {sub row : UserSubscription}

theorem UserSubscription.usedAfter_refund {amount : Int} (hused : amount ≤ sub.amountUsed) :
    sub.usedAfter (-amount) = sub.amountUsed - amount := by
  unfold UserSubscription.usedAfter
  rw [if_neg (by omega)]
  omega

theorem UserSubscription.usedAfter_clamped {amount : Int} (hused : sub.amountUsed < amount) :
    sub.usedAfter (-amount) = 0 := by
  unfold UserSubscription.usedAfter
  rw [if_pos (by omega)]

theorem UserSubscription.refundable {amount : Int} (hused : amount ≤ sub.amountUsed)
    (hpos : 0 < amount) (htotal : 0 < sub.amountTotal → sub.amountUsed ≤ sub.amountTotal) :
    sub.Refundable amount := by
  intro hlimited
  have := htotal hlimited
  rw [usedAfter_refund hused]
  omega

theorem UserSubscription.Refundable.postConsume {amount : Int} (h : sub.Refundable amount) :
    sub.postConsume (-amount) = some { sub with amountUsed := sub.usedAfter (-amount) } := by
  unfold UserSubscription.postConsume
  rw [if_neg]
  omega

variable {db : SubscriptionDB} {requestId : String} {record : PreConsumeRecord}
  {faults : RefundFaults}

theorem postConsume_ok {id delta : Int} {saved : UserSubscription} (hid : 0 < id)
    (hdelta : delta ≠ 0) (hrow : db.subs.get id = some sub)
    (hsaved : sub.postConsume delta = some saved) :
    postConsumeUserSubscriptionDelta db id delta false =
      .ok { db with subs := db.subs.save saved } := by
  unfold postConsumeUserSubscriptionDelta
  rw [if_neg (by omega), if_neg hdelta]
  simp [hrow, hsaved]

/-- A row that holds less than the amount may be brought down to 0 without the mark. -/
inductive RefundState (requestId : String) (record : PreConsumeRecord)
    (sub : UserSubscription) (db : SubscriptionDB) : Prop
  | pending (row : UserSubscription) (h : Unrefunded db requestId record row)
      (hused : row.amountUsed = sub.amountUsed ∨
        row.amountUsed = 0 ∧ sub.amountUsed < record.preConsumed)
  | done (row : UserSubscription) (stored : PreConsumeRecord)
      (hrow : db.subs.get record.userSubscriptionId = some row)
      (hstored : db.records requestId = some stored)
      (hstatus : stored.status = .refunded)
      (hused : sub.amountUsed - row.amountUsed = record.preConsumed)

theorem RefundState.once (h : RefundState requestId record sub db) :
    RefundedOnce requestId record sub db := by
  cases h with
  | pending row h hused =>
    have hpos := h.amount
    refine ⟨row, record, h.row, h.stored, by omega, ?_⟩
    rw [h.status]
    simp only [reduceCtorEq, iff_false]
    omega
  | done row stored hrow hstored hstatus hused =>
    exact ⟨row, stored, hrow, hstored, by omega, by simp [hstatus, hused]⟩

def SubscriptionDB.lowered (db : SubscriptionDB) (record : PreConsumeRecord)
    (sub : UserSubscription) : SubscriptionDB :=
  { db with
    subs := db.subs.save { sub with amountUsed := sub.usedAfter (-record.preConsumed) } }

theorem Unrefunded.lowered_row (h : Unrefunded db requestId record sub) :
    (db.lowered record sub).subs.get record.userSubscriptionId =
      some { sub with amountUsed := sub.usedAfter (-record.preConsumed) } := by
  obtain ⟨-, hid⟩ := (Table.get_eq_some_iff _).mp h.row
  have hget := h.row
  rw [← hid] at hget ⊢
  exact Table.get_save_self db.subs
    (a := { sub with amountUsed := sub.usedAfter (-record.preConsumed) }) hget

theorem Unrefunded.result (h : Unrefunded db requestId record sub)
    (hfits : sub.Refundable record.preConsumed) (faults : RefundFaults) :
    refundSubscriptionPreConsume db requestId faults =
      if faults.findRecord = true ∨ faults.postConsume = true then (db, some .database)
      else if faults.saveRecord = true then (db.lowered record sub, some .database)
      else ((db.lowered record sub).markRefunded requestId record, none) := by
  have hpos := h.amount
  have hopen : record.status ≠ .refunded := by
    rw [h.status]
    decide
  unfold refundSubscriptionPreConsume
  rw [if_neg h.request]
  cases hfind : faults.findRecord with
  | true => simp
  | false =>
    simp only [Bool.false_eq_true, if_false, h.stored, if_neg hopen, false_or]
    rw [if_neg (by omega)]
    cases hpost : faults.postConsume with
    | true =>
      unfold postConsumeUserSubscriptionDelta
      rw [if_neg (by have := h.positive; omega), if_neg (by omega)]
      simp
    | false =>
      rw [postConsume_ok h.positive (by omega) h.row hfits.postConsume]
      cases hsave : faults.saveRecord <;> simp [SubscriptionDB.lowered]

theorem Unrefunded.attempt_refused (h : Unrefunded db requestId record sub)
    (hfits : ¬ sub.Refundable record.preConsumed) :
    refundAttempt requestId db faults = db := by
  have hpos := h.amount
  have hrefused : sub.postConsume (-record.preConsumed) = none := by
    unfold UserSubscription.postConsume
    rw [if_pos (by omega)]
  unfold refundAttempt refundSubscriptionPreConsume postConsumeUserSubscriptionDelta
  simp only [h.stored, h.status, reduceCtorEq, h.row, hrefused, if_false]
  grind

theorem Unrefunded.attempt (h : Unrefunded db requestId record sub)
    (hfits : sub.Refundable record.preConsumed) (faults : RefundFaults) :
    refundAttempt requestId db faults =
      if faults.findRecord = true ∨ faults.postConsume = true then db
      else if faults.saveRecord = true then db.lowered record sub
      else (db.lowered record sub).markRefunded requestId record := by
  rw [refundAttempt, h.result hfits]
  split
  · rfl
  · split <;> rfl

theorem Consumed.refundWithRetry (h : Consumed db requestId record sub)
    {first second third : RefundFaults}
    (hsave : ∀ faults ∈ [first, second, third], faults.saveRecord = false)
    (hsome : ∃ faults ∈ [first, second, third],
      faults.findRecord = false ∧ faults.postConsume = false) :
    (refundWithRetry (fun db => refundSubscriptionPreConsume db requestId) db
        first second third).1 =
      (db.lowered record sub).markRefunded requestId record := by
  have hattempt : ∀ faults ∈ [first, second, third],
      refundSubscriptionPreConsume db requestId faults =
        if faults.findRecord = true ∨ faults.postConsume = true then (db, some .database)
        else ((db.lowered record sub).markRefunded requestId record, none) := by
    intro faults hmem
    rw [h.result (UserSubscription.refundable h.used h.amount h.total), hsave faults hmem]
    simp
  have h₁ := hattempt first (by simp)
  have h₂ := hattempt second (by simp)
  have h₃ := hattempt third (by simp)
  simp only [Subscriptions.refundWithRetry]
  by_cases hfirst : first.findRecord = true ∨ first.postConsume = true
  · rw [h₁, if_pos hfirst]
    by_cases hsecond : second.findRecord = true ∨ second.postConsume = true
    · have hthird : ¬ (third.findRecord = true ∨ third.postConsume = true) := by
        obtain ⟨faults, hmem, hfind, hpost⟩ := hsome
        rcases List.mem_cons.mp hmem with rfl | hmem
        · simp [hfind, hpost] at hfirst
        rcases List.mem_cons.mp hmem with rfl | hmem
        · simp [hfind, hpost] at hsecond
        obtain rfl := List.mem_singleton.mp hmem
        simp [hfind, hpost]
      simp [h₂, if_pos hsecond, h₃, if_neg hthird]
    · simp [h₂, if_neg hsecond]
  · rw [h₁, if_neg hfirst]

private theorem refundState_attempt (h : RefundState requestId record sub db)
    (hmarks : MarksRefund requestId db faults) :
    RefundState requestId record sub (refundAttempt requestId db faults) := by
  cases h with
  | done row stored hrow hstored hstatus hused =>
    have hsame : refundAttempt requestId db faults = db := by
      unfold refundAttempt refundSubscriptionPreConsume
      split
      · rfl
      split
      · rfl
      · simp [hstored, hstatus]
    rw [hsame]
    exact .done row stored hrow hstored hstatus hused
  | pending row h hused =>
    by_cases hfits : row.Refundable record.preConsumed
    case neg =>
      rw [h.attempt_refused hfits]
      exact .pending row h hused
    have hpos := h.amount
    rw [h.attempt hfits]
    split
    · exact .pending row h hused
    rename_i hfaults
    have hmark := hmarks record h.stored h.status row h.row hfits (by simp_all) (by simp_all)
    cases hsave : faults.saveRecord with
    | false =>
      have hholds := hmark.mp hsave
      refine .done _ { record with status := .refunded } h.lowered_row ?_ rfl ?_
      · simp [SubscriptionDB.markRefunded]
      · simp only [UserSubscription.usedAfter_refund hholds]
        omega
    | true =>
      have hless : row.amountUsed < record.preConsumed := by
        rw [hsave] at hmark
        simpa using hmark
      refine .pending _ { h with row := h.lowered_row } (.inr ⟨?_, by omega⟩)
      exact UserSubscription.usedAfter_clamped hless

private theorem marksRefund_of_once (h : RefundState requestId record sub db)
    (honce : RefundedOnce requestId record sub (refundAttempt requestId db faults)) :
    MarksRefund requestId db faults := by
  intro stored hstored hconsumed found hfound hfits hfind hpost
  cases h with
  | done row stored' hrow hstored' hstatus =>
    rw [Option.mem_def, hstored', Option.some.injEq] at hstored
    rw [← hstored, hstatus] at hconsumed
    contradiction
  | pending row h hused =>
    obtain rfl : stored = record := Option.some.inj (hstored.symm.trans h.stored)
    obtain rfl : found = row := Option.some.inj (hfound.symm.trans h.row)
    have hpos := h.amount
    rw [h.attempt hfits, if_neg (by simp [hfind, hpost])] at honce
    obtain ⟨after, marked, hafter, hmarked, -, hiff⟩ := honce
    cases hsave : faults.saveRecord with
    | false =>
      -- the mark is saved, so that the whole amount is given back
      rw [hsave, if_neg Bool.false_ne_true] at hafter hmarked
      obtain rfl := Option.some.inj (hafter.symm.trans h.lowered_row)
      have hrefunded : marked.status = .refunded := by
        simp only [SubscriptionDB.markRefunded, Function.update_self] at hmarked
        rw [← Option.some.inj hmarked]
      have hlowered := hiff.mpr hrefunded
      simp only [true_iff]
      by_contra hless
      simp only [UserSubscription.usedAfter_clamped (not_le.mp hless)] at hlowered
      omega
    | true =>
      rw [hsave, if_pos rfl] at hafter hmarked
      obtain rfl := Option.some.inj (hafter.symm.trans h.lowered_row)
      obtain rfl := Option.some.inj (hmarked.symm.trans h.stored)
      simp only [Bool.true_eq_false, false_iff]
      intro hholds
      rw [h.status] at hiff
      simp only [UserSubscription.usedAfter_refund hholds, reduceCtorEq, iff_false] at hiff
      omega

/-- The balance agrees with the record after every attempt exactly when no attempt
commits the balance of a row that holds the amount and fails to mark the record, or
marks it with a row that holds less. -/
theorem refund_once_iff (db : SubscriptionDB) (requestId : String) (record : PreConsumeRecord)
    (sub : UserSubscription) (h : Unrefunded db requestId record sub)
    (attempts : List RefundFaults) :
    (∀ before after, attempts = before ++ after →
      RefundedOnce requestId record sub (run (refundAttempt requestId) db before)) ↔
      Admits (refundAttempt requestId) (MarksRefund requestId) db attempts :=
  have hside : Admits (refundAttempt requestId) (fun _ _ => True) db attempts :=
    admits_of_forall (fun _ _ => trivial) db attempts
  forall_prefix_iff_admits (fun _ hs => hs.once)
    (fun _ _ hs _ hok => refundState_attempt hs hok)
    (fun _ _ hs _ hlaw => marksRefund_of_once hs hlaw) (.pending sub h (.inl rfl)) hside

theorem refundWithRetry_attempts (db : SubscriptionDB) (requestId : String)
    (first second third : RefundFaults) :
    ∃ n, (refundWithRetry (fun db => refundSubscriptionPreConsume db requestId) db
        first second third).1 =
      run (refundAttempt requestId) db ([first, second, third].take n) := by
  simp only [refundWithRetry]
  cases hfirst : refundSubscriptionPreConsume db requestId first with
  | mk db₁ err₁ =>
    have h₁ : refundAttempt requestId db first = db₁ := by rw [refundAttempt, hfirst]
    cases err₁ with
    | none => exact ⟨1, by simp [h₁]⟩
    | some =>
      cases hsecond : refundSubscriptionPreConsume db₁ requestId second with
      | mk db₂ err₂ =>
        have h₂ : refundAttempt requestId db₁ second = db₂ := by
          rw [refundAttempt, hsecond]
        cases err₂ with
        | none => exact ⟨2, by simp [hsecond, h₁, h₂]⟩
        | some =>
          refine ⟨3, ?_⟩
          simp only [hsecond, List.take_succ_cons, List.take_zero, run_cons, run_nil, h₁, h₂]
          rfl

def chargedSubscription : UserSubscription :=
  { id := 1, userId := 7, planId := 2, amountTotal := 200, amountUsed := 100
    startTime := 1800000000, endTime := 1900000000, status := .active, source := "order"
    lastResetTime := 0, nextResetTime := 0, upgradeGroup := "", prevUserGroup := "" }

def chargedRecord : PreConsumeRecord :=
  { userId := 7, userSubscriptionId := 1, preConsumed := 30, status := .consumed }

def chargedDB : SubscriptionDB :=
  { subs := { rows := [chargedSubscription], nodup := by decide }
    records := fun requestId => if requestId = "req" then some chargedRecord else none
    plans := fun _ => none
    groups := fun _ => "default" }

theorem chargedDB_charged : Unrefunded chargedDB "req" chargedRecord chargedSubscription where
  request := by decide
  stored := by decide
  status := by decide
  amount := by decide
  positive := by decide
  row := by decide

def noFaults : RefundFaults := { findRecord := false, postConsume := false, saveRecord := false }

def unmarked : RefundFaults := { noFaults with saveRecord := true }

def secondAttempt : List RefundFaults := [{ noFaults with postConsume := true }, noFaults]

theorem refund_once_iff_two_attempts :
    RefundedOnce "req" chargedRecord chargedSubscription
      (run (refundAttempt "req") chargedDB secondAttempt) :=
  (refund_once_iff chargedDB "req" chargedRecord chargedSubscription chargedDB_charged
    secondAttempt).mpr (by decide) secondAttempt [] (by simp)

/-- One call of the retry wrapper refunds 60 of the 30 that were pre-consumed. -/
theorem retry_refunds_twice :
    let refunded := (refundWithRetry (fun db => refundSubscriptionPreConsume db "req")
      chargedDB unmarked noFaults noFaults).1
    (chargedDB.subs.get 1).map (·.amountUsed) = some 100 ∧
    (refunded.subs.get 1).map (·.amountUsed) = some 40 ∧
    (refunded.records "req").map (·.status) = some .refunded := by
  decide

end

/-!
## What a pre-consume leaves behind

A successful `PreConsumeUserSubscription` of a new request charges one active
subscription of the user and records the charge: the starting point of every
later settlement and refund.
-/

open List UserSubscription

variable {sub : UserSubscription} {db' : SubscriptionDB}
  {zone now amount userId id delta : Int} {fuel : Nat} {requestId : String}
  {db : SubscriptionDB} {result : PreConsumeResult} {fault : Bool}

theorem maybeReset_keeps {sub' : UserSubscription} {plan : SubscriptionPlan}
    (h : maybeResetUserSubscriptionWithPlanTx zone fuel sub plan now = some sub') :
    sub'.id = sub.id ∧ (sub'.amountUsed = sub.amountUsed ∨ sub'.amountUsed = 0) := by
  unfold maybeResetUserSubscriptionWithPlanTx at h
  split at h
  · cases h
    exact ⟨rfl, .inl rfl⟩
  split at h
  · cases h
    exact ⟨rfl, .inl rfl⟩
  split at h
  · cases h
  split at h
  · split at h <;> obtain rfl := Option.some.inj h <;> exact ⟨rfl, .inl rfl⟩
  · cases h
    exact ⟨rfl, .inr rfl⟩

theorem UserSubscription.preConsume_spec {consumed : UserSubscription}
    (h : sub.preConsume amount = some consumed) :
    consumed = { sub with amountUsed := sub.amountUsed + amount } ∧
      (0 < sub.amountTotal → sub.amountUsed + amount ≤ sub.amountTotal) := by
  unfold preConsume at h
  split at h
  · contradiction
  · rename_i hfits
    exact ⟨(Option.some.inj h).symm, by omega⟩

/-- The row that paid: the candidate, its state after a possible reset, and the
database with the charge. -/
structure Charged (zone : Int) (fuel : Nat) (now : Int) (requestId : String)
    (userId amount : Int) (db db' : SubscriptionDB) (result : PreConsumeResult)
    (candidate sub : UserSubscription) (plan : SubscriptionPlan) : Prop where
  loaded : db.getSubscriptionPlanById candidate.planId = some plan
  reset : maybeResetUserSubscriptionWithPlanTx zone fuel candidate plan now = some sub
  found : db.subs.get candidate.id = some candidate
  fits : 0 < sub.amountTotal → sub.amountUsed + amount ≤ sub.amountTotal
  result_id : result.userSubscriptionId = candidate.id
  result_amount : result.preConsumed = amount
  row : db'.subs.get candidate.id = some { sub with amountUsed := sub.amountUsed + amount }
  record : db'.records = Function.update db.records requestId
    (some ⟨userId, candidate.id, amount, .consumed⟩)

private theorem preConsumeFirst_charged {candidates : List UserSubscription}
    (hnodup : (candidates.map (·.id)).Nodup) (hfound : ∀ c ∈ candidates, db.subs.get c.id = some c)
    (h : preConsumeFirst zone fuel now requestId userId amount candidates db =
      some (.ok (result, db'))) :
    ∃ candidate ∈ candidates, ∃ sub plan,
      Charged zone fuel now requestId userId amount db db' result candidate sub plan := by
  induction candidates generalizing db with
  | nil => simp [preConsumeFirst] at h
  | cons candidate rest ih =>
    rw [map_cons, nodup_cons] at hnodup
    simp only [preConsumeFirst] at h
    cases hplan : db.getSubscriptionPlanById candidate.planId with
    | none => simp [hplan] at h
    | some plan =>
      simp only [hplan] at h
      cases hreset : maybeResetUserSubscriptionWithPlanTx zone fuel candidate plan now with
      | none => simp [hreset] at h
      | some sub =>
        simp only [hreset] at h
        obtain ⟨hid, -⟩ := maybeReset_keeps hreset
        have hself := hfound candidate mem_cons_self
        cases hpay : sub.preConsume amount with
        | some =>
          simp only [hpay, Option.some.injEq, Except.ok.injEq, Prod.mk.injEq] at h
          obtain ⟨rfl, rfl⟩ := h
          obtain ⟨rfl, hfits⟩ := preConsume_spec hpay
          refine ⟨candidate, mem_cons_self, sub, plan, hplan, hreset, hself, hfits,
            hid, rfl, ?_, by simp [hid]⟩
          rw [← hid] at hself ⊢
          exact Table.get_save_self db.subs
            (a := { sub with amountUsed := sub.amountUsed + amount }) hself
        | none =>
          simp only [hpay] at h
          -- the candidate cannot pay; its reset does not touch the others
          have hother : ∀ c ∈ rest, c.id ≠ sub.id := by
            intro c hc heq
            exact hnodup.1 (mem_map.mpr ⟨c, hc, by rw [heq, hid]⟩)
          have hrest : ∀ c ∈ rest, (db.subs.save sub).get c.id = some c := by
            intro c hc
            rw [Table.get_save_ne _ (hother c hc)]
            exact hfound c (mem_cons_of_mem _ hc)
          obtain ⟨c, hc, sub', plan', hcharged⟩ := ih hnodup.2 hrest h
          refine ⟨c, mem_cons_of_mem _ hc, sub', plan', ?_⟩
          exact { hcharged with found := hfound c (mem_cons_of_mem _ hc) }

theorem preConsume_ok {fault : PreConsumeFault}
    (h : preConsumeUserSubscription zone fuel db now requestId userId amount fault =
      some (.ok (result, db'))) :
    0 < amount ∧ trimSpace requestId ≠ "" ∧
      (db.records requestId ≠ none ∧ db' = db ∨
        preConsumeFirst zone fuel now requestId userId amount
          ((db.activeSubs userId now).insertionSort endTimeOrder) db =
            some (.ok (result, db'))) := by
  unfold preConsumeUserSubscription at h
  rw [ite_some_error_eq_ok, ite_some_error_eq_ok, ite_some_error_eq_ok, ite_some_error_eq_ok] at h
  obtain ⟨-, hrequest, hamount, -, h⟩ := h
  refine ⟨not_le.mp hamount, hrequest, ?_⟩
  cases hrecord : db.records requestId
  all_goals
    rw [hrecord] at h
    dsimp only at h
    rw [ite_some_error_eq_ok] at h
    replace h := h.2
    split at h
    · cases h
  · exact .inr h
  · obtain ⟨-, rfl⟩ := Prod.mk.inj (Except.ok.inj (Option.some.inj h))
    exact .inl ⟨Option.some_ne_none _, rfl⟩

theorem preConsume_charged {fault : PreConsumeFault} (hfresh : db.records requestId = none)
    (h : preConsumeUserSubscription zone fuel db now requestId userId amount fault =
      some (.ok (result, db'))) :
    0 < amount ∧ trimSpace requestId ≠ "" ∧
      ∃ candidate ∈ db.activeSubs userId now, ∃ sub plan,
        Charged zone fuel now requestId userId amount db db' result candidate sub plan := by
  obtain ⟨hamount, hrequest, ⟨hrecord, -⟩ | hcandidates⟩ := preConsume_ok h
  · exact absurd hfresh hrecord
  refine ⟨hamount, hrequest, ?_⟩
  have hsorted := perm_insertionSort endTimeOrder (db.activeSubs userId now)
  have hnodup : (((db.activeSubs userId now).insertionSort endTimeOrder).map (·.id)).Nodup := by
    rw [(hsorted.map _).nodup_iff]
    exact db.subs.nodup.sublist (filter_sublist.map _)
  have hfound : ∀ c ∈ (db.activeSubs userId now).insertionSort endTimeOrder,
      db.subs.get c.id = some c := by
    intro c hc
    have hmem := mem_of_mem_filter (hsorted.mem_iff.mp hc)
    exact (Table.get_eq_some_iff _).mpr ⟨hmem, rfl⟩
  obtain ⟨c, hc, hcharged⟩ := preConsumeFirst_charged hnodup hfound hcandidates
  exact ⟨c, hsorted.mem_iff.mp hc, hcharged⟩

/-- A reset that happens during the call gives the quota back. -/
def NoReset (zone : Int) (fuel : Nat) (db : SubscriptionDB) (userId now : Int) : Prop :=
  ∀ sub ∈ db.activeSubs userId now, ∀ plan ∈ db.getSubscriptionPlanById sub.planId,
    ∀ saved ∈ maybeResetUserSubscriptionWithPlanTx zone fuel sub plan now,
      saved.amountUsed = sub.amountUsed

instance (zone : Int) (fuel : Nat) (db : SubscriptionDB) (userId now : Int) :
    Decidable (NoReset zone fuel db userId now) := by
  unfold NoReset
  infer_instance

section

variable (hdelta : delta ≠ 0) (h : postConsumeUserSubscriptionDelta db id delta fault = .ok db')
include hdelta h

theorem postConsume_eq :
    0 < id ∧ ∃ sub, db.subs.get id = some sub ∧
      (0 < sub.amountTotal → sub.usedAfter delta ≤ sub.amountTotal) ∧
      db' = { db with subs := db.subs.save { sub with amountUsed := sub.usedAfter delta } } := by
  unfold postConsumeUserSubscriptionDelta at h
  rw [if_neg hdelta] at h
  split at h
  · contradiction
  rename_i hid
  split at h
  · contradiction
  split at h
  · contradiction
  rename_i sub hrow
  simp only [postConsume] at h
  split at h
  · contradiction
  rename_i saved hsaved
  split at hsaved
  · contradiction
  rename_i hfits
  cases hsaved
  cases h
  exact ⟨by omega, sub, hrow, by omega, rfl⟩

theorem postConsume_saved :
    ∃ sub, db.subs.get id = some sub ∧
      db'.subs.get id = some { sub with amountUsed := sub.usedAfter delta } ∧
      (0 < sub.amountTotal → sub.usedAfter delta ≤ sub.amountTotal) ∧
      db'.records = db.records := by
  obtain ⟨-, sub, hrow, htotal, rfl⟩ := postConsume_eq hdelta h
  refine ⟨sub, hrow, ?_, htotal, rfl⟩
  obtain ⟨-, rfl⟩ := (Table.get_eq_some_iff _).mp hrow
  exact Table.get_save_self db.subs (a := { sub with amountUsed := sub.usedAfter delta }) hrow

theorem postConsume_spec (hrow : db.subs.get id = some sub)
    (hclamp : 0 ≤ sub.amountUsed + delta) :
    db'.subs.get id = some { sub with amountUsed := sub.amountUsed + delta } ∧
      (0 < sub.amountTotal → sub.amountUsed + delta ≤ sub.amountTotal) ∧
      db'.records = db.records := by
  have hused : sub.usedAfter delta = sub.amountUsed + delta := by
    rw [usedAfter, if_neg (by omega)]
  obtain ⟨found, hfound, hsaved⟩ := postConsume_saved hdelta h
  obtain rfl := Option.some.inj (hrow.symm.trans hfound)
  rwa [hused] at hsaved

end

theorem postConsume_back (hrow : db.subs.get id = some sub) (hid : 0 < id) (hpos : 0 < amount)
    (hused : amount ≤ sub.amountUsed)
    (htotal : 0 < sub.amountTotal → sub.amountUsed ≤ sub.amountTotal) :
    ∃ db', postConsumeUserSubscriptionDelta db id (-amount) false = .ok db' :=
  ⟨_, postConsume_ok hid (by omega) hrow (refundable hused hpos htotal).postConsume⟩

end NewApi.Subscriptions
