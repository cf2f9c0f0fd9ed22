import NewApi.Billing.Funding

/-!
# Opening a session

`NewBillingSession` leaves the accounts as they were if it fails, and charges
the funding source and the token with the same amount if it succeeds.
-/

namespace NewApi.Billing

open Foundation Subscriptions BillingSession Accounts

namespace BillingSession

section Sync

variable (s : BillingSession)

@[simp] theorem sync_funding : s.syncRelayInfo.funding = s.funding := by
  cases h : s.funding <;> simp [syncRelayInfo, h]

@[simp] theorem sync_fields :
    s.syncRelayInfo.preConsumedQuota = s.preConsumedQuota ∧
      s.syncRelayInfo.tokenConsumed = s.tokenConsumed ∧
      s.syncRelayInfo.extraReserved = s.extraReserved ∧ s.syncRelayInfo.trusted = s.trusted ∧
      s.syncRelayInfo.fundingSettled = s.fundingSettled ∧ s.syncRelayInfo.settled = s.settled ∧
      s.syncRelayInfo.refunded = s.refunded ∧
      s.syncRelayInfo.relayInfo.isPlayground = s.relayInfo.isPlayground ∧
      s.syncRelayInfo.relayInfo.tokenId = s.relayInfo.tokenId := by
  cases h : s.funding <;> simp [syncRelayInfo, h]

theorem sync_subscriptionId {sub : SubscriptionFunding} (h : s.funding = .subscription sub) :
    s.syncRelayInfo.relayInfo.subscriptionId = sub.subscriptionId := by
  simp [syncRelayInfo, h]

end Sync

def chargedToken (info : RelayInfo) (a : Accounts) (amount : Int) : Accounts :=
  if 0 < amount ∧ info.isPlayground = false then a.chargeToken info.tokenId amount else a

theorem chargedToken_db (info : RelayInfo) (a : Accounts) (amount : Int) :
    (chargedToken info a amount).db = a.db := by
  unfold chargedToken
  split <;> rfl

private theorem chargedToken_users (info : RelayInfo) (a : Accounts) (amount : Int) :
    (chargedToken info a amount).users = a.users := by
  unfold chargedToken
  split <;> rfl

theorem holds_chargedToken {before a : Accounts} {extra taken : Int} {f : Funding}
    (h : f.Holds before a extra taken) (info : RelayInfo) (amount : Int) :
    f.Holds before (chargedToken info a amount) extra taken := by
  unfold chargedToken
  split
  · exact h.chargeToken _ _
  · exact h

theorem tokenDebit_chargedToken {info : RelayInfo} (before a : Accounts) (amount : Int)
    (hplay : info.isPlayground = false) :
    before.tokenDebit (chargedToken info a amount) info.tokenId =
      before.tokenDebit a info.tokenId + max 0 amount := by
  unfold chargedToken tokenDebit
  split
  · rw [chargeToken_remain]
    omega
  · rename_i hpos
    have hle : amount ≤ 0 := by
      by_contra hlt
      exact hpos ⟨by omega, hplay⟩
    omega

variable {env : Env} {s : BillingSession}

section

variable {a charged : Accounts} {quota : Int}

theorem preConsumeTokenQuota_ok {info : RelayInfo} {remain : Option Int} {fault : Bool}
    (hpos : 0 < quota) (h : preConsumeTokenQuota env info a quota remain fault = .ok charged) :
    charged = chargedToken info a quota := by
  unfold preConsumeTokenQuota at h
  unfold chargedToken
  rw [if_neg (by omega)] at h
  cases hplay : info.isPlayground with
  | true =>
    simp only [hplay, if_true] at h
    simpa using (Except.ok.inj h).symm
  | false =>
    simp only [hplay, Bool.false_eq_true, if_false] at h
    rw [if_pos ⟨hpos, rfl⟩]
    split at h
    · contradiction
    split at h
    · contradiction
    exact checked_ok h

theorem preConsumeToken_ok {s' : BillingSession} {inputs : TryInputs} (hstart : s.tokenConsumed = 0)
    (h : s.preConsumeToken env a quota inputs = .ok (s', charged)) :
    s' = { s with tokenConsumed := max 0 quota } ∧ charged = chargedToken s.relayInfo a quota := by
  unfold preConsumeToken at h
  split at h
  · rename_i hpos
    split at h
    · contradiction
    rename_i hcharged
    cases h
    rw [max_eq_right hpos.le]
    exact ⟨rfl, preConsumeTokenQuota_ok hpos hcharged⟩
  · rename_i hpos
    cases h
    rw [max_eq_left (by omega), ← hstart]
    exact ⟨rfl, by simp [chargedToken, hpos]⟩

private theorem returnToken_chargedToken (a : Accounts) (h : s.tokenConsumed = max 0 quota) :
    s.returnToken (chargedToken s.relayInfo a quota) false = a := by
  unfold returnToken chargedToken
  by_cases hpos : 0 < quota ∧ s.relayInfo.isPlayground = false
  · have hconsumed : s.tokenConsumed = quota := by omega
    rw [if_pos hpos, hconsumed, if_pos hpos, increaseTokenQuota, checked_succeeds hpos.1.le]
    exact chargeToken_undo a _ quota
  · rw [if_neg hpos, if_neg]
    rintro ⟨hlt, hplay⟩
    exact hpos ⟨by omega, hplay⟩

def effectiveQuota (env : Env) (s : BillingSession) (quota : Int) : Int :=
  if s.shouldTrust env = true then 0 else quota

private theorem effectiveQuota_subscription {sub : SubscriptionFunding}
    (h : s.funding = .subscription sub) : s.effectiveQuota env quota = quota := by
  have htrust : s.shouldTrust env = false := by
    unfold shouldTrust
    rw [h]
    split
    · rfl
    split
    · rfl
    split <;> rfl
  rw [effectiveQuota, htrust]
  rfl

end

section PreConsume

variable {env : Env} {s s' : BillingSession} {a a' : Accounts} {quota : Int} {inputs : TryInputs}

theorem preConsume_error {err : ApiError} (hstart : s.tokenConsumed = 0)
    (hrollback : inputs.rollback = false)
    (h : s.preConsume env a quota inputs = some (a', .error err)) : a' = a := by
  unfold preConsume at h
  simp only at h
  split at h
  · simp only [Option.some.injEq, Prod.mk.injEq] at h
    exact h.1.symm
  rename_i paying charged htoken
  obtain ⟨rfl, rfl⟩ := preConsumeToken_ok (by exact hstart) htoken
  split at h
  · contradiction
  · simp only [Option.some.injEq, Prod.mk.injEq] at h
    rw [← h.1, hrollback]
    exact returnToken_chargedToken a rfl
  · simp at h

theorem preConsume_ok (hstart : s.tokenConsumed = 0)
    (h : s.preConsume env a quota inputs = some (a', .ok s')) :
    ∃ funding, s.funding.preConsume env
        (chargedToken s.relayInfo a (s.effectiveQuota env quota))
        (s.effectiveQuota env quota) inputs.wallet inputs.subscription = some (.ok (funding, a')) ∧
      s' = syncRelayInfo
        { s with
          trusted := s.shouldTrust env
          tokenConsumed := max 0 (s.effectiveQuota env quota)
          funding := funding
          preConsumedQuota := s.effectiveQuota env quota } := by
  unfold preConsume at h
  simp only at h
  split at h
  · simp at h
  rename_i paying charged htoken
  obtain ⟨rfl, rfl⟩ := preConsumeToken_ok (by exact hstart) htoken
  split at h
  · contradiction
  · simp at h
  · rename_i funding paid hpaid
    cases h
    exact ⟨funding, hpaid, rfl⟩

end PreConsume

end BillingSession

structure BillingSession.Unused (s : BillingSession) : Prop where
  fundingSettled : s.fundingSettled = false
  settled : s.settled = false
  refunded : s.refunded = false

/-- A session that has charged its funding source and its token with what it says.
An amount below zero is charged nowhere. -/
structure Opened (before after : Accounts) (s : BillingSession) : Prop extends s.Unused where
  extra : s.extraReserved = 0
  holds : s.funding.Holds before after 0 (max 0 s.preConsumedQuota)
  consumed : s.tokenConsumed = max 0 s.preConsumedQuota
  token : s.relayInfo.isPlayground = false →
    before.tokenDebit after s.relayInfo.tokenId = max 0 s.preConsumedQuota
  synced : ∀ sub, s.funding = .subscription sub → s.relayInfo.subscriptionId = sub.subscriptionId

/-- What a request may rely on: its id is new, rows have positive keys and use
nothing below zero, and no row is reset by the call. -/
structure Ready (env : Env) (info : RelayInfo) (a : Accounts) : Prop where
  fresh : a.db.records info.requestId = none
  rows : ∀ sub ∈ a.db.subs.rows, 0 < sub.id ∧ 0 ≤ sub.amountUsed
  noReset : NoReset env.zone env.fuel a.db info.userId env.now

section New

variable {env : Env} {info : RelayInfo} {a after : Accounts} {quota : Int}
  {inputs : BillingSession.TryInputs} {s : BillingSession}
  {start funding : Funding} {amount : Int} {err : ApiError}

theorem unused_of_preConsume
    (h : (fresh info start).preConsume env a quota inputs = some (after, .ok s)) :
    s.Unused := by
  obtain ⟨funding, -, rfl⟩ := preConsume_ok rfl h
  constructor <;> simp [fresh]

theorem opened_sync {trusted : Bool} {effective : Int}
    (hholds : funding.Holds a after 0 (max 0 effective))
    (htokens : after.tokens = (chargedToken info a effective).tokens) :
    Opened a after (syncRelayInfo
      { fresh info start with
        trusted := trusted
        tokenConsumed := max 0 effective
        funding := funding
        preConsumedQuota := effective }) where
  fundingSettled := by simp [fresh]
  settled := by simp [fresh]
  refunded := by simp [fresh]
  extra := by simp [fresh]
  holds := by simpa using hholds
  consumed := by simp
  token := by
    simp only [sync_fields, fresh]
    intro hplay
    have hcharged := tokenDebit_chargedToken a a effective hplay
    simp only [tokenDebit, htokens] at hcharged ⊢
    omega
  synced := by
    intro sub hsub
    rw [sync_funding] at hsub
    exact sync_subscriptionId _ hsub

theorem tryWallet_cases (env : Env) (info : RelayInfo) (a : Accounts) (quota : Int)
    (inputs : BillingSession.TryInputs) :
    (∃ err, tryWallet env info a quota inputs = some (a, .error err)) ∨
      ∃ userQuota, tryWallet env info a quota inputs =
        (fresh { info with userQuota := userQuota }
          (.wallet { userId := info.userId, consumed := 0 })).preConsume env a quota inputs := by
  unfold tryWallet
  split
  · exact .inl ⟨_, rfl⟩
  split
  · exact .inl ⟨_, rfl⟩
  split
  · exact .inl ⟨_, rfl⟩
  · exact .inr ⟨_, rfl⟩

private theorem wallet_preConsume {userId : Int} {fault : Bool} {subFault : PreConsumeFault}
    (h : Funding.preConsume env a amount fault subFault
      (.wallet { userId := userId, consumed := 0 }) = some (.ok (funding, after))) :
    funding = .wallet { userId := userId, consumed := max 0 amount } ∧
      after.users userId = a.users userId - max 0 amount ∧ after.tokens = a.tokens := by
  simp only [Funding.preConsume] at h
  split at h
  · rename_i hnone
    cases h
    rw [max_eq_left hnone]
    exact ⟨rfl, by omega, rfl⟩
  rename_i hpos
  split at h
  · simp at h
  rename_i paid hcharge
  cases h
  obtain rfl := checked_ok hcharge
  rw [max_eq_right (by omega)]
  refine ⟨rfl, ?_, rfl⟩
  simp

private theorem tryWallet_opened (h : tryWallet env info a quota inputs = some (after, .ok s)) :
    Opened a after s ∧ s.funding.source = .wallet ∧
      s.preConsumedQuota = if s.trusted = true then 0 else quota := by
  rcases tryWallet_cases env info a quota inputs with ⟨err, hrefused⟩ | ⟨userQuota, htried⟩
  · simp [hrefused] at h
  rw [htried] at h
  obtain ⟨funding, hpaid, rfl⟩ := preConsume_ok rfl h
  generalize heff : effectiveQuota env _ quota = effective at hpaid
  obtain ⟨rfl, husers, htokens⟩ := wallet_preConsume hpaid
  rw [chargedToken_users] at husers
  refine ⟨opened_sync ⟨?_, rfl⟩ htokens, by simp [Funding.source], ?_⟩
  · simp only
    omega
  · simp only [sync_fields]
    rw [← heff]
    rfl

private theorem trySubscription_opened (hready : Ready env info a)
    (h : trySubscription env info a quota inputs = some (after, .ok s)) :
    Opened a after s ∧ s.funding.source = .subscription ∧ 0 ≤ s.preConsumedQuota := by
  obtain ⟨funding, hpaid, rfl⟩ := preConsume_ok rfl h
  rw [effectiveQuota_subscription rfl] at hpaid ⊢
  have hcharged : (chargedToken info a (subConsume quota)).db = a.db := chargedToken_db ..
  have hpos : 0 < subConsume quota := by
    unfold subConsume
    split <;> omega
  have hpaid' : funding.Holds a after 0 (max 0 (subConsume quota)) ∧
      after.tokens = (chargedToken info a (subConsume quota)).tokens ∧
        funding.source = .subscription := by
    simp only [fresh, Funding.preConsume, hcharged] at hpaid
    split at hpaid
    · contradiction
    · simp at hpaid
    rename_i result db hresult
    cases hpaid
    obtain ⟨-, hrequest, candidate, hactive, sub, plan, hc⟩ :=
      preConsume_charged hready.fresh hresult
    obtain ⟨hmem, hid⟩ := (Table.get_eq_some_iff _).mp hc.found
    obtain ⟨hkey, hused⟩ := hready.rows candidate hmem
    have hsame := hready.noReset candidate hactive plan hc.loaded sub hc.reset
    refine ⟨⟨?_, candidate, { sub with amountUsed := sub.amountUsed + subConsume quota },
      ⟨info.userId, candidate.id, subConsume quota, .consumed⟩, ?_⟩, rfl, rfl⟩
    · simp only [hc.result_amount]
      omega
    · constructor
      · rw [hc.result_id]
        exact hc.found
      · exact hused
      · rw [hc.result_id]
        exact hc.row
      · simp only [hc.result_amount, hsame]
        omega
      · exact hc.fits
      · rw [hc.record, Function.update_self]
      · rfl
      · rw [hc.result_amount]
      · rw [hc.result_id]
      · rw [hc.result_id]
        exact hkey
      · rw [hc.result_amount]
        exact hpos
      · exact hrequest
  obtain ⟨hholds, htokens, hsource⟩ := hpaid'
  refine ⟨opened_sync hholds htokens, by simpa using hsource, ?_⟩
  simpa using hpos.le

theorem tryWallet_error (hrollback : inputs.rollback = false)
    (h : tryWallet env info a quota inputs = some (after, .error err)) : after = a := by
  rcases tryWallet_cases env info a quota inputs with ⟨_, hrefused⟩ | ⟨_, htried⟩
  · rw [hrefused, Option.some.injEq, Prod.mk.injEq] at h
    exact h.1.symm
  · rw [htried] at h
    exact preConsume_error rfl hrollback h

theorem trySubscription_error (hrollback : inputs.rollback = false)
    (h : trySubscription env info a quota inputs = some (after, .error err)) : after = a :=
  preConsume_error rfl hrollback h

theorem orElse_cases {first : Option (Accounts × Except ApiError BillingSession)}
    {second : Accounts → Option (Accounts × Except ApiError BillingSession)}
    {result : Except ApiError BillingSession} (h : orElse first second = some (after, result)) :
    first = some (after, result) ∨
      ∃ a err, first = some (a, .error err) ∧ second a = some (after, result) := by
  unfold orElse at h
  split at h
  · rename_i a' err
    split at h
    · exact .inr ⟨a', err, rfl, h⟩
    · exact .inl h
  · exact .inl h

end New

section NewSession

variable {env : Env} {info : RelayInfo} {a after : Accounts} {quota : Int}
  {wallet subscription : BillingSession.TryInputs} {hasSubFault : Bool}
  {result : Except ApiError BillingSession}

theorem newBillingSession_tried
    (h : newBillingSession env info a quota wallet subscription hasSubFault =
      some (after, result)) :
    (∃ a', (a' = a ∨ ∃ err, trySubscription env info a quota subscription =
        some (a', .error err)) ∧ tryWallet env info a' quota wallet = some (after, result)) ∨
      (∃ a', (a' = a ∨ ∃ err, tryWallet env info a quota wallet = some (a', .error err)) ∧
        trySubscription env info a' quota subscription = some (after, result)) ∨
      ∃ err, after = a ∧ result = .error err := by
  unfold newBillingSession at h
  split at h
  · exact .inr (.inl ⟨a, .inl rfl, h⟩)
  · exact .inl ⟨a, .inl rfl, h⟩
  · rcases orElse_cases h with hfirst | ⟨a', err, hfirst, hsecond⟩
    · exact .inl ⟨a, .inl rfl, hfirst⟩
    · exact .inr (.inl ⟨a', .inr ⟨err, hfirst⟩, hsecond⟩)
  · split at h
    · simp only [Option.some.injEq, Prod.mk.injEq] at h
      exact .inr (.inr ⟨_, h.1.symm, h.2.symm⟩)
    · exact .inl ⟨a, .inl rfl, h⟩
    · rcases orElse_cases h with hfirst | ⟨a', err, hfirst, hsecond⟩
      · exact .inr (.inl ⟨a, .inl rfl, hfirst⟩)
      · exact .inl ⟨a', .inr ⟨err, hfirst⟩, hsecond⟩

variable {s : BillingSession}

section

variable (hwallet : wallet.rollback = false) (hsubscription : subscription.rollback = false)
include hwallet hsubscription

theorem newBillingSession_cases
    (h : newBillingSession env info a quota wallet subscription hasSubFault =
      some (after, result)) :
    tryWallet env info a quota wallet = some (after, result) ∨
      trySubscription env info a quota subscription = some (after, result) ∨
      ∃ err, after = a ∧ result = .error err := by
  rcases newBillingSession_tried h with
    ⟨a', rfl | ⟨err, hfirst⟩, htried⟩ | ⟨a', rfl | ⟨err, hfirst⟩, htried⟩ | hnone
  · exact .inl htried
  · obtain rfl := trySubscription_error hsubscription hfirst
    exact .inl htried
  · exact .inr (.inl htried)
  · obtain rfl := tryWallet_error hwallet hfirst
    exact .inr (.inl htried)
  · exact .inr (.inr hnone)

theorem newBillingSession_error {err : ApiError}
    (h : newBillingSession env info a quota wallet subscription hasSubFault =
      some (after, .error err)) : after = a := by
  rcases newBillingSession_cases hwallet hsubscription h with h | h | ⟨-, h, -⟩
  · exact tryWallet_error hwallet h
  · exact trySubscription_error hsubscription h
  · exact h

end

variable
  (h : newBillingSession env info a quota wallet subscription hasSubFault = some (after, .ok s))
include h

theorem newBillingSession_unused : s.Unused := by
  rcases newBillingSession_tried h with ⟨a', -, h⟩ | ⟨a', -, h⟩ | ⟨err, -, h⟩
  · rcases tryWallet_cases env info a' quota wallet with ⟨_, hrefused⟩ | ⟨_, htried⟩
    · simp [hrefused] at h
    · rw [htried] at h
      exact unused_of_preConsume h
  · exact unused_of_preConsume h
  · cases h

theorem newBillingSession_opened (hready : Ready env info a) (hwallet : wallet.rollback = false)
    (hsubscription : subscription.rollback = false) :
    Opened a after s ∧
      (0 ≤ s.preConsumedQuota ↔ (s.funding.source = .wallet → s.trusted = false → 0 ≤ quota)) := by
  rcases newBillingSession_cases hwallet hsubscription h with h | h | ⟨err, -, h⟩
  · obtain ⟨hopened, hsource, hquota⟩ := tryWallet_opened h
    refine ⟨hopened, ?_⟩
    rw [hquota]
    cases s.trusted <;> simp [hsource]
  · obtain ⟨hopened, hsource, hpos⟩ := trySubscription_opened hready h
    exact ⟨hopened, iff_of_true hpos (by simp [hsource])⟩
  · cases h

end NewSession

end NewApi.Billing
