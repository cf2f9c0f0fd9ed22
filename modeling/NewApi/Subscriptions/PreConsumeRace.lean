import NewApi.Subscriptions.Maintenance

/-!
# Racing pre-consumes of one request

`PreConsumeUserSubscription` for one request id, cut at its reads and at the insertion of its
record, for which other calls with the same id wait.  `Save` replaces a row or adds it.
-/

namespace NewApi.Subscriptions

open Foundation List Function

/-- `chosen` has the rows that resets have saved and the subscription that can pay. -/
inductive PreConsumePhase where
  | searching (now : Int)
  | chosen (saved : List UserSubscription) (sub : UserSubscription)

/-- `charged` are the subscriptions before their charge, `returned` the successful answers. -/
structure PreConsumeState where
  db : SubscriptionDB
  calls : Nat → Option PreConsumePhase := fun _ => none
  charged : List UserSubscription := []
  returned : List PreConsumeResult := []

inductive PreConsumeEvent where
  | lookup (i : Nat) (now : Int)
  | list (i : Nat)
  | create (i : Nat)

variable (zone : Int) (fuel : Nat) (requestId : String) (userId amount : Int)

def chooseSub (db : SubscriptionDB) (now : Int) :
    List UserSubscription → Option (List UserSubscription × UserSubscription)
  | [] => none
  | candidate :: rest => do
    let plan ← db.getSubscriptionPlanById candidate.planId
    let sub ← maybeResetUserSubscriptionWithPlanTx zone fuel candidate plan now
    let saved := if sub = candidate then [] else [sub]
    if (sub.preConsume amount).isSome then return (saved, sub)
    let (more, chosen) ← chooseSub db now rest
    return (saved ++ more, chosen)

def recordedResult (sub : UserSubscription) (record : PreConsumeRecord) : PreConsumeResult :=
  ⟨sub.id, record.preConsumed, sub.amountTotal, sub.amountUsed, sub.amountUsed⟩

namespace PreConsumeState

/-- A duplicate is answered with the subscription that was chosen. -/
def create (s : PreConsumeState) (saved : List UserSubscription) (sub : UserSubscription) :
    PreConsumeState :=
  let subs := saved.foldl Table.put s.db.subs
  match s.db.records requestId with
  | some dup =>
    if dup.status = .refunded then s
    else { s with
      db := { s.db with subs := subs }
      returned := s.returned ++ [recordedResult sub dup] }
  | none =>
    let used := sub.amountUsed + amount
    { s with
      db := { s.db with
        subs := subs.put { sub with amountUsed := used }
        records := update s.db.records requestId (some ⟨userId, sub.id, amount, .consumed⟩) }
      charged := s.charged ++ [sub]
      returned := s.returned ++ [⟨sub.id, amount, sub.amountTotal, sub.amountUsed, used⟩] }

def step (s : PreConsumeState) (e : PreConsumeEvent) : PreConsumeState :=
  match e with
  | .lookup i now =>
    if userId ≤ 0 ∨ trimSpace requestId = "" ∨ amount ≤ 0 ∨ (s.calls i).isSome then s
    else match s.db.records requestId with
    | some existing =>
      if existing.status = .refunded then s
      else match s.db.subs.get existing.userSubscriptionId with
      | some sub => { s with returned := s.returned ++ [recordedResult sub existing] }
      | none => s
    | none => { s with calls := update s.calls i (some (.searching now)) }
  | .list i =>
    match s.calls i with
    | some (.searching now) =>
      let subs := (s.db.activeSubs userId now).insertionSort endTimeOrder
      let choice := chooseSub zone fuel amount s.db now subs
      { s with calls := update s.calls i (choice.map fun c => .chosen c.1 c.2) }
    | _ => s
  | .create i =>
    match s.calls i with
    | some (.chosen saved sub) =>
      { s.create requestId userId amount saved sub with
        calls := update s.calls i none }
    | _ => s

/-- A call that meets a record when it inserts its own has chosen the recorded subscription, and
no reset of it is under way. -/
def MeetsOwn (s : PreConsumeState) (e : PreConsumeEvent) : Prop :=
  match e with
  | .create i =>
    match s.calls i with
    | some (.chosen saved sub) => ∀ dup ∈ s.db.records requestId,
      saved = [] ∧ sub.id = dup.userSubscriptionId
    | _ => True
  | _ => True

instance (s : PreConsumeState) (e : PreConsumeEvent) : Decidable (s.MeetsOwn requestId e) := by
  unfold MeetsOwn
  split
  · split <;> infer_instance
  · infer_instance

structure Idempotent (s : PreConsumeState) : Prop where
  once : s.charged.length ≤ 1
  charge : ∀ sub ∈ s.charged, { sub with amountUsed := sub.amountUsed + amount } ∈ s.db.subs.rows ∧
    s.db.records requestId = some ⟨userId, sub.id, amount, .consumed⟩
  answers : ∀ r ∈ s.returned, ∃ record ∈ s.db.records requestId,
    r.userSubscriptionId = record.userSubscriptionId ∧ r.preConsumed = record.preConsumed

variable {zone fuel requestId userId amount} {s : PreConsumeState} {sub : UserSubscription}

section

variable (h : s.Idempotent requestId userId amount)
include h

theorem Idempotent.answer {record : PreConsumeRecord}
    (hrecord : s.db.records requestId = some record) (hsub : sub.id = record.userSubscriptionId) :
    Idempotent requestId userId amount
      { s with returned := s.returned ++ [recordedResult sub record] } where
  once := h.once
  charge := h.charge
  answers := by
    intro r hr
    rcases mem_append.mp hr with hold | hnew
    · exact h.answers r hold
    · obtain rfl := mem_singleton.mp hnew
      exact ⟨record, hrecord, hsub, rfl⟩

theorem Idempotent.create {saved : List UserSubscription}
    (hmeets : ∀ dup ∈ s.db.records requestId, saved = [] ∧ sub.id = dup.userSubscriptionId) :
    (s.create requestId userId amount saved sub).Idempotent requestId userId amount := by
  unfold PreConsumeState.create
  split
  · next dup hdup =>
    split
    · exact h
    · obtain ⟨rfl, hsub⟩ := hmeets dup hdup
      exact h.answer hdup hsub
  next hnone =>
  have hcharged : s.charged = [] := by
    refine eq_nil_iff_forall_not_mem.mpr fun c hc => ?_
    have hrecord := (h.charge c hc).2
    rw [hnone] at hrecord
    cases hrecord
  have hreturned : s.returned = [] := by
    refine eq_nil_iff_forall_not_mem.mpr fun r hr => ?_
    obtain ⟨record, hrecord, -⟩ := h.answers r hr
    rw [hnone] at hrecord
    cases hrecord
  rw [hcharged, hreturned]
  constructor
  · exact Nat.le_refl 1
  · intro c hc
    obtain rfl := mem_singleton.mp hc
    exact ⟨(Table.mem_put _).mpr (.inr rfl), update_self ..⟩
  · intro r hr
    obtain rfl := mem_singleton.mp hr
    exact ⟨_, update_self .., rfl, rfl⟩

theorem Idempotent.step (e : PreConsumeEvent) (hmeets : s.MeetsOwn requestId e) :
    (s.step zone fuel requestId userId amount e).Idempotent requestId userId amount := by
  cases e with
  | lookup i now =>
    dsimp only [PreConsumeState.step]
    split
    · exact h
    split
    · next existing hexisting =>
      split
      · exact h
      split
      · next sub hsub =>
        exact h.answer hexisting ((Table.get_eq_some_iff _).mp hsub).2
      · exact h
    · exact { h with }
  | list i =>
    dsimp only [PreConsumeState.step]
    split
    · exact { h with }
    · exact h
  | create i =>
    dsimp only [PreConsumeState.step, MeetsOwn] at hmeets ⊢
    split
    · next saved sub hcall =>
      rw [hcall] at hmeets
      exact { h.create hmeets with }
    · exact h

end

end PreConsumeState

open PreConsumeState

/-- However calls for one request interleave, if each that meets a record has chosen the recorded
subscription, at most one is charged, once, and every answer is what the record says. -/
theorem preConsume_idempotent (zone : Int) (fuel : Nat) (requestId : String) (userId amount : Int)
    (db : SubscriptionDB) (events : List PreConsumeEvent)
    (h : Admits (step zone fuel requestId userId amount) (MeetsOwn requestId) { db := db } events) :
    (run (step zone fuel requestId userId amount) { db := db } events).Idempotent
      requestId userId amount := by
  refine Admits.invariant _ (fun s e hs => hs.step e) ?_ h
  exact ⟨Nat.zero_le 1, forall_mem_nil _, forall_mem_nil _⟩

def twoSubs : PreConsumeState := { db := dueRows 2 (resetPlan "never" 0) }

theorem preConsume_idempotent_serial :
    (run (step 0 0 "r" 7 80) twoSubs [.lookup 0 1850000000, .list 0, .create 0,
      .lookup 1 1850000000]).Idempotent "r" 7 80 := by
  apply preConsume_idempotent
  decide +kernel

/-- The second call has found no record and lists after the first has charged: subscription 0
cannot pay any more, and the duplicate is answered with subscription 1. -/
theorem preConsume_idempotent_counterexample :
    ∃ s, s = run (step 0 0 "r" 7 80) twoSubs [.lookup 0 1850000000, .lookup 1 1850000000, .list 0,
        .create 0, .list 1, .create 1] ∧
      s.db.records "r" = some ⟨7, 0, 80, .consumed⟩ ∧
      s.returned.map (·.userSubscriptionId) = [0, 1] := by
  refine ⟨_, rfl, ?_⟩
  decide +kernel

end NewApi.Subscriptions
