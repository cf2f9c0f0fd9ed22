import NewApi.Billing.Ledger

/-!
# Atomic charges

`NewBillingSession` charges the token before the funding source, `Reserve` the funding
source before the token, and each takes the first charge back if the second one fails.
`PostConsumeUserSubscriptionDelta` cuts `amount_used` off at 0, so that taking back is
exact only for rows that have not used less than nothing, which no operation leaves.
-/

namespace NewApi.Subscriptions

open Foundation UserSubscription

namespace SubscriptionDB

def Sound (db : SubscriptionDB) : Prop := ∀ sub ∈ db.subs.rows, 0 ≤ sub.amountUsed

variable {db : SubscriptionDB} {sub : UserSubscription}

theorem Sound.get (h : db.Sound) {id : Int} (hrow : db.subs.get id = some sub) :
    0 ≤ sub.amountUsed := h sub ((Table.get_eq_some_iff _).mp hrow).1

theorem Sound.save (h : db.Sound) (hused : 0 ≤ sub.amountUsed) :
    { db with subs := db.subs.save sub }.Sound := by
  intro other hother
  rcases Table.mem_save _ hother with rfl | ⟨hmem, -⟩
  · exact hused
  · exact h other hmem

theorem Sound.markRefunded (h : db.Sound) (requestId : String) (record : PreConsumeRecord) :
    (db.markRefunded requestId record).Sound := h

end SubscriptionDB

variable {zone now userId amount id delta : Int} {fuel : Nat} {requestId : String}
  {db db' : SubscriptionDB} {result : PreConsumeResult} {fault : Bool}

private theorem sound_preConsumeFirst (hamount : 0 < amount) {candidates : List UserSubscription}
    (hcandidates : ∀ sub ∈ candidates, 0 ≤ sub.amountUsed) (hdb : db.Sound)
    (h : preConsumeFirst zone fuel now requestId userId amount candidates db =
      some (.ok (result, db'))) : db'.Sound := by
  induction candidates generalizing db with
  | nil => cases h
  | cons candidate rest ih =>
    rw [List.forall_mem_cons] at hcandidates
    unfold preConsumeFirst at h
    split at h
    · cases h
    split at h
    · cases h
    next sub hreset =>
    have hused : 0 ≤ sub.amountUsed := by
      obtain ⟨-, hsame | hzero⟩ := maybeReset_keeps hreset
      · exact hsame ▸ hcandidates.1
      · exact hzero.ge
    split at h
    · exact ih hcandidates.2 (hdb.save hused) h
    next consumed hconsumed =>
    obtain ⟨-, rfl⟩ := Prod.mk.inj (Except.ok.inj (Option.some.inj h))
    obtain ⟨rfl, -⟩ := preConsume_spec hconsumed
    exact hdb.save (Int.add_nonneg hused hamount.le)

section

variable (hdb : db.Sound)
include hdb

theorem sound_postConsume (h : postConsumeUserSubscriptionDelta db id delta fault = .ok db') :
    db'.Sound := by
  by_cases hdelta : delta = 0
  · rw [postConsumeUserSubscriptionDelta, if_pos hdelta] at h
    split at h
    · cases h
    · cases h
      exact hdb
  · obtain ⟨-, sub, hrow, -, rfl⟩ := postConsume_eq hdelta h
    apply hdb.save
    dsimp only [usedAfter]
    split
    · exact le_rfl
    · omega

private theorem postConsume_undo (hdelta : 0 < delta)
    (h : postConsumeUserSubscriptionDelta db id delta fault = .ok db') :
    postConsumeUserSubscriptionDelta db' id (-delta) false = .ok db := by
  obtain ⟨hid, sub, hrow, htotal, rfl⟩ := postConsume_eq hdelta.ne' h
  have hused := hdb.get hrow
  have hafter : sub.usedAfter delta = sub.amountUsed + delta := by
    rw [usedAfter, if_neg (by omega)]
  rw [hafter] at htotal ⊢
  obtain ⟨-, rfl⟩ := (Table.get_eq_some_iff _).mp hrow
  have hget := Table.get_save_self db.subs
    (a := { sub with amountUsed := sub.amountUsed + delta }) hrow
  have hback : postConsume { sub with amountUsed := sub.amountUsed + delta }
      (-delta) = some sub := by
    have hholds : delta ≤ sub.amountUsed + delta := by omega
    rw [(refundable hholds hdelta htotal).postConsume, usedAfter_refund hholds]
    dsimp only
    rw [add_sub_cancel_right]
  have htwice : (db.subs.save { sub with amountUsed := sub.amountUsed + delta }).save sub =
      db.subs.save sub := by
    apply Table.save_save
    rfl
  rw [postConsume_ok hid (by omega) hget hback]
  dsimp only
  rw [htwice, Table.save_self _ hrow]

theorem sound_refund (requestId : String) (faults : RefundFaults) :
    (refundSubscriptionPreConsume db requestId faults).1.Sound := by
  unfold refundSubscriptionPreConsume
  split
  · exact hdb
  split
  · exact hdb
  split
  · exact hdb
  split
  · exact hdb
  split
  · split <;> exact hdb
  split
  · exact hdb
  next refunded hrefunded =>
  split
  · exact sound_postConsume hdb hrefunded
  · exact (sound_postConsume hdb hrefunded).markRefunded requestId _

end

private theorem refundWithRetry_keeps {P : SubscriptionDB → Prop}
    {fn : SubscriptionDB → RefundFaults → SubscriptionDB × Option SubscriptionError}
    (hfn : ∀ db faults, P db → P (fn db faults).1) (hdb : P db)
    (first second third : RefundFaults) : P (refundWithRetry fn db first second third).1 := by
  have hfirst := hfn db first hdb
  unfold refundWithRetry
  split
  · next h => rwa [h] at hfirst
  next after _ h =>
  rw [h] at hfirst
  have hsecond := hfn after second hfirst
  split
  · next h => rwa [h] at hsecond
  next h =>
  rw [h] at hsecond
  exact hfn _ third hsecond

end NewApi.Subscriptions

namespace NewApi.Billing

open NewApi.Foundation
open NewApi.Subscriptions

def Accounts.Sound (a : Accounts) : Prop := a.db.Sound

namespace Accounts

variable {a a' : Accounts}

theorem Sound.checked {quota : Int} {fault : Bool} {change : Accounts → Accounts}
    (h : a.checked quota fault change = .ok a') (hchange : (change a).Sound) : a'.Sound := by
  obtain rfl := checked_ok h
  exact hchange

theorem Sound.postConsume (hsound : a.Sound) {id delta : Int} {fault : Bool}
    (h : a.postConsumeUserSubscriptionDelta id delta fault = .ok a') : a'.Sound := by
  obtain ⟨db, hdb, rfl⟩ := Funding.accounts_postConsume_ok h
  exact sound_postConsume hsound hdb

theorem Sound.compensate (hsound : a.Sound) {result : Except String Accounts}
    (h : ∀ a', result = .ok a' → a'.Sound) : (a.compensate result).Sound := by
  unfold Accounts.compensate
  split
  · exact h _ rfl
  · exact hsound

end Accounts

namespace Funding

variable {a a' : Accounts} {f f' : Funding}

section

variable (hsound : a.Sound)
include hsound

theorem sound_preConsume {env : Env} {amount : Int} {walletFault : Bool}
    {subscriptionFault : PreConsumeFault}
    (h : f.preConsume env a amount walletFault subscriptionFault = some (.ok (f', a'))) :
    a'.Sound := by
  cases f with
  | wallet =>
    simp only [Funding.preConsume] at h
    split at h
    · obtain ⟨-, rfl⟩ := Prod.mk.inj (Except.ok.inj (Option.some.inj h))
      exact hsound
    · split at h
      · cases h
      next hpaid =>
      obtain ⟨-, rfl⟩ := Prod.mk.inj (Except.ok.inj (Option.some.inj h))
      exact Accounts.Sound.checked hpaid hsound
  | subscription =>
    simp only [Funding.preConsume] at h
    split at h
    · cases h
    · cases h
    · next hconsumed =>
      obtain ⟨-, rfl⟩ := Prod.mk.inj (Except.ok.inj (Option.some.inj h))
      obtain ⟨hamount, -, ⟨-, rfl⟩ | hcandidates⟩ := preConsume_ok hconsumed
      · exact hsound
      apply sound_preConsumeFirst hamount _ hsound hcandidates
      intro sub hsub
      rw [List.mem_insertionSort] at hsub
      exact hsound sub (List.mem_of_mem_filter hsub)

variable {delta : Int} {fault : Bool}

theorem sound_settle (h : f.settle a delta fault = .ok a') : a'.Sound := by
  cases f with
  | wallet =>
    simp only [Funding.settle] at h
    split at h
    · cases h
      exact hsound
    · split at h <;> exact Accounts.Sound.checked h hsound
  | subscription =>
    simp only [Funding.settle] at h
    split at h
    · cases h
      exact hsound
    · exact hsound.postConsume h

theorem sound_refund (faults : RefundCallFaults) : (f.refund a faults).Sound := by
  cases f with
  | wallet =>
    simp only [Funding.refund]
    split
    · exact hsound
    apply hsound.compensate
    intro a' h
    exact Accounts.Sound.checked h hsound
  | subscription s =>
    simp only [Funding.refund]
    split
    · exact hsound
    apply refundWithRetry_keeps _ hsound
    intro db faults hdb
    exact Subscriptions.sound_refund hdb s.requestId faults

theorem sound_reserve (h : f.reserve a delta fault = .ok (f', a')) : a'.Sound := by
  cases f
  all_goals
    simp only [Funding.reserve] at h
    split at h
    · cases h
    next hpaid =>
    cases h
    first
    | exact Accounts.Sound.checked hpaid hsound
    | exact hsound.postConsume hpaid

private theorem sound_rollback : (f.rollback a delta fault).2.Sound := by
  cases f with
  | wallet =>
    simp only [Funding.rollback]
    split
    · exact hsound
    · next hrestored => exact Accounts.Sound.checked hrestored hsound
  | subscription =>
    simp only [Funding.rollback]
    apply hsound.compensate
    intro a' h
    exact hsound.postConsume h

end

end Funding

namespace BillingSession

variable {env : Env} {s : BillingSession} {a : Accounts}

theorem sound_chargedToken (hsound : a.Sound) (info : RelayInfo) (amount : Int) :
    (chargedToken info a amount).Sound := by
  unfold Accounts.Sound
  rw [chargedToken_db]
  exact hsound

theorem sound_returnToken (hsound : a.Sound) (fault : Bool) : (s.returnToken a fault).Sound := by
  unfold returnToken
  split
  · apply hsound.compensate
    intro a' h
    exact Accounts.Sound.checked h hsound
  · exact hsound

theorem sound_preConsume {quota : Int} {inputs : TryInputs} {a' : Accounts}
    {result : Except ApiError BillingSession} (hstart : s.tokenConsumed = 0) (hsound : a.Sound)
    (h : s.preConsume env a quota inputs = some (a', result)) : a'.Sound := by
  unfold preConsume at h
  dsimp only at h
  split at h
  · cases h
    exact hsound
  next charged htoken =>
  obtain ⟨rfl, rfl⟩ := preConsumeToken_ok (by exact hstart) htoken
  have hcharged := sound_chargedToken hsound s.relayInfo
    (if s.shouldTrust env = true then 0 else quota)
  split at h
  · cases h
  · cases h
    exact sound_returnToken hcharged inputs.rollback
  · next hpaid =>
    cases h
    exact Funding.sound_preConsume hcharged hpaid

theorem sound_reserve (hsound : a.Sound) (targetQuota : Int) (faults : ReserveFaults) :
    (s.reserve env a targetQuota faults).2.1.Sound := by
  rcases reserve_cases env s a targetQuota faults with
    ⟨err, h⟩ | ⟨delta, funding, paid, -, hreserve, ⟨message, h⟩ | h⟩
  · rw [h]
    exact hsound
  · rw [h]
    exact Funding.sound_rollback (Funding.sound_reserve hsound hreserve)
  · rw [h]
    exact sound_chargedToken (Funding.sound_reserve hsound hreserve) _ _

theorem sound_settle (hsound : a.Sound) (actualQuota : Int) (faults : SettleFaults) :
    (s.settle a actualQuota faults).2.1.Sound := by
  unfold settle
  split
  · exact hsound
  dsimp only
  split
  · exact hsound
  split
  · exact hsound
  next paid hpaid =>
  have hsettled : paid.Sound := by
    split at hpaid
    · cases hpaid
      exact hsound
    · exact Funding.sound_settle hsound hpaid
  split
  · exact hsettled
  next htoken =>
  obtain rfl := adjustToken_ok htoken
  dsimp only
  split <;> exact hsettled

theorem sound_refund (hsound : a.Sound) (faults : RefundCallFaults) :
    (s.refund a faults).2.Sound := by
  unfold refund
  split
  · exact hsound
  apply sound_returnToken
  have hrefunded : (s.funding.refund a faults).Sound := Funding.sound_refund hsound faults
  unfold refundFunding
  dsimp only
  split
  · apply hrefunded.compensate
    intro a' h
    exact hrefunded.postConsume h
  · exact hrefunded

end BillingSession

variable {env : Env} {a a' : Accounts}
  {info : RelayInfo} {quota : Int} {inputs : BillingSession.TryInputs}
  {result : Except ApiError BillingSession} {after : Accounts}

theorem sound_tryWallet (hsound : a.Sound)
    (h : tryWallet env info a quota inputs = some (a', result)) : a'.Sound := by
  rcases tryWallet_cases env info a quota inputs with ⟨err, hrefused⟩ | ⟨userQuota, htried⟩
  · rw [hrefused] at h
    cases h
    exact hsound
  · rw [htried] at h
    exact BillingSession.sound_preConsume rfl hsound h

theorem sound_trySubscription (hsound : a.Sound)
    (h : trySubscription env info a quota inputs = some (a', result)) :
    a'.Sound := BillingSession.sound_preConsume rfl hsound h

private theorem sound_newBillingSession {wallet subscription : BillingSession.TryInputs}
    {hasSubFault : Bool} (hsound : a.Sound)
    (h : newBillingSession env info a quota wallet subscription hasSubFault =
      some (after, result)) : after.Sound := by
  rcases newBillingSession_tried h with ⟨a', hfirst, h⟩ | ⟨a', hfirst, h⟩ | ⟨err, rfl, -⟩
  · apply sound_tryWallet _ h
    rcases hfirst with rfl | ⟨err, hfirst⟩
    · exact hsound
    · exact sound_trySubscription hsound hfirst
  · apply sound_trySubscription _ h
    rcases hfirst with rfl | ⟨err, hfirst⟩
    · exact hsound
    · exact sound_tryWallet hsound hfirst
  · exact hsound

def Ledger.Sound (l : Ledger) : Prop := l.accounts.Sound

theorem Ledger.Sound.step {l : Ledger} (h : l.Sound) (c : Call) : (l.step env c).Sound := by
  cases c with
  | reserve targetQuota faults => exact BillingSession.sound_reserve h targetQuota faults
  | settle actualQuota faults => exact BillingSession.sound_settle h actualQuota faults
  | refund faults => exact BillingSession.sound_refund h faults

private theorem chargeUser_undo (a : Accounts) (id amount : Int) :
    (a.chargeUser id amount).chargeUser id (-amount) = a := by
  cases a with
  | mk =>
    simp only [Accounts.chargeUser, Function.update_self, Function.update_idem,
      Accounts.mk.injEq, and_true]
    rw [Function.update_eq_self_iff]
    omega

theorem Funding.rollback_reserve {paid : Accounts} {delta : Int} {f funding : Funding}
    {fault : Bool} (hsound : a.Sound) (hdelta : 0 < delta)
    (h : f.reserve a delta fault = .ok (funding, paid)) :
    funding.rollback paid delta false = (f, a) := by
  cases f with
  | wallet w =>
    simp only [Funding.reserve] at h
    split at h
    · cases h
    next hpaid =>
    cases h
    obtain rfl := Accounts.checked_ok hpaid
    simp only [Funding.rollback, Accounts.increaseUserQuota,
      Accounts.checked_succeeds hdelta.le, chargeUser_undo]
    rw [show w.consumed + delta - delta = w.consumed by omega]
  | subscription =>
    simp only [Funding.reserve] at h
    split at h
    · cases h
    next hpaid =>
    cases h
    obtain ⟨db, hdb, rfl⟩ := Funding.accounts_postConsume_ok hpaid
    simp only [Funding.rollback, Accounts.postConsumeUserSubscriptionDelta,
      postConsume_undo hsound hdelta hdb, Accounts.compensate]

theorem BillingSession.reserve_error {s s' : BillingSession} {targetQuota : Int}
    {faults : ReserveFaults} {message : String} (hsound : a.Sound)
    (hrollback : faults.rollback = false)
    (h : s.reserve env a targetQuota faults = (s', after, some message)) : s' = s ∧ after = a := by
  rcases reserve_cases env s a targetQuota faults with
    ⟨err, hidle⟩ | ⟨delta, funding, paid, hdelta, hreserve, ⟨text, hback⟩ | hcharged⟩
  · rw [hidle] at h
    obtain ⟨rfl, hafter⟩ := Prod.mk.inj h
    exact ⟨rfl, (Prod.mk.inj hafter).1.symm⟩
  · rw [hback, hrollback, Funding.rollback_reserve hsound hdelta hreserve] at h
    obtain ⟨rfl, hafter⟩ := Prod.mk.inj h
    exact ⟨rfl, (Prod.mk.inj hafter).1.symm⟩
  · rw [hcharged] at h
    cases (Prod.mk.inj (Prod.mk.inj h).2).2

structure SoundAccounts extends Accounts where
  sound : toAccounts.Sound

/--
A session that is refused and a reservation that fails leave the accounts as they were, the
quotas of users and tokens as well as what the subscriptions have used; the reservation
leaves the session as it was, too.
-/
theorem session_atomic (env : Env) (a : SoundAccounts) :
    (∀ (info : RelayInfo) (quota : Int) (wallet subscription : BillingSession.TryInputs)
        (hasSubFault : Bool) (after : Accounts) (err : ApiError),
      wallet.rollback = false → subscription.rollback = false →
      newBillingSession env info a.toAccounts quota wallet subscription hasSubFault =
        some (after, .error err) → after = a.toAccounts) ∧
    ∀ (s s' : BillingSession) (targetQuota : Int) (faults : BillingSession.ReserveFaults)
        (after : Accounts) (message : String),
      faults.rollback = false →
      s.reserve env a.toAccounts targetQuota faults = (s', after, some message) →
        after = a.toAccounts ∧ s' = s := by
  constructor
  · intro info quota wallet subscription hasSubFault after err hwallet hsubscription h
    exact newBillingSession_error hwallet hsubscription h
  · intro s s' targetQuota faults after message hrollback h
    exact (BillingSession.reserve_error a.sound hrollback h).symm

/-- From its opening on, whatever fails, a request leaves no subscription that has used less than
nothing, so that a reservation that fails changes nothing at any point. -/
theorem request_reserves_atomic (env : Env) (a : SoundAccounts) (info : RelayInfo) (quota : Int)
    (wallet subscription : BillingSession.TryInputs) (hasSubFault : Bool) (opened : Accounts)
    (s : BillingSession) (h : newBillingSession env info a.toAccounts quota wallet subscription
      hasSubFault = some (opened, .ok s)) (calls : List Call) :
    let l := run (Ledger.step env) (.start opened s) calls
    l.accounts.db.Sound ∧ ∀ targetQuota faults, faults.rollback = false →
      (l.session.reserve env l.accounts targetQuota faults).2.2 ≠ none →
        l.step env (.reserve targetQuota faults) = l := by
  have hsound : (run (Ledger.step env) (.start opened s) calls).Sound := by
    refine run_invariant ?_ ?_ calls
    · exact fun _ c hl => hl.step c
    · exact sound_newBillingSession a.sound h
  generalize run (Ledger.step env) (.start opened s) calls = l at hsound ⊢
  refine ⟨hsound, fun targetQuota faults hrollback hfailed => ?_⟩
  rcases hresult : l.session.reserve env l.accounts targetQuota faults with ⟨s', after, err⟩
  rw [hresult] at hfailed
  cases err with
  | none => exact absurd rfl hfailed
  | some =>
    obtain ⟨rfl, rfl⟩ := BillingSession.reserve_error hsound hrollback hresult
    simp only [Ledger.step, hresult]

/-! A subscription of which 10 of 100 have been used. -/

def usedTen : UserSubscription where
  id := 1
  userId := 7
  planId := 1
  amountTotal := 100
  amountUsed := 10
  startTime := 1
  endTime := 2000000000
  status := .active
  source := "order"
  lastResetTime := 0
  nextResetTime := 0
  upgradeGroup := ""
  prevUserGroup := ""

def neverReset : SubscriptionPlan where
  id := 1
  durationUnit := .year
  durationValue := 1
  customSeconds := 0
  maxPurchasePerUser := 0
  upgradeGroup := ""
  totalAmount := 100
  quotaResetPeriod := "never"
  quotaResetCustomSeconds := 0

def subscribedAccounts : SoundAccounts where
  toAccounts :=
    { walletAccounts with
      db :=
        { walletAccounts.db with
          subs := ⟨[usedTen], by decide⟩
          plans := fun _ => some neverReset } }
  sound := by
    intro sub hsub
    obtain rfl := List.mem_singleton.mp hsub
    decide

def subscribedSession : BillingSession :=
  .fresh walletInfo (.subscription ⟨"req", 7, 10, 1, 10, 100, 10⟩)

def subscriptionInfo : RelayInfo := { walletInfo with billingPreference := "subscription_only" }

/-- A reservation on the subscription succeeds and the next one fails at the token. -/
theorem request_reserves_atomic_subscribed :
    ∃ opened s, newBillingSession plainEnv subscriptionInfo subscribedAccounts.toAccounts 30
        plainInputs plainInputs false = some (opened, .ok s) ∧
      let l := run (Ledger.step plainEnv) (.start opened s) [.reserve 50 reserveFaults]
      (l.accounts.db.subs.get 1).map (·.amountUsed) = some 60 ∧ l.accounts.db.Sound ∧
        l.step plainEnv (.reserve 80 { reserveFaults with token := true }) = l := by
  refine ⟨_, _, rfl, rfl, ?_⟩
  have h := request_reserves_atomic plainEnv subscribedAccounts subscriptionInfo 30 plainInputs
    plainInputs false _ _ rfl [.reserve 50 reserveFaults]
  exact ⟨h.1, h.2 80 { reserveFaults with token := true } rfl nofun⟩

/-- The wallet fails after the token was charged, and the token after the subscription. -/
theorem session_atomic_subscribed :
    (∃ after err, newBillingSession plainEnv walletInfo subscribedAccounts.toAccounts 30
        { plainInputs with wallet := true } plainInputs false = some (after, .error err) ∧
      after = subscribedAccounts.toAccounts) ∧
    ∃ s' after message, subscribedSession.reserve plainEnv subscribedAccounts.toAccounts 80
        { reserveFaults with token := true } = (s', after, some message) ∧
      after = subscribedAccounts.toAccounts ∧ s' = subscribedSession := by
  have hatomic := session_atomic plainEnv subscribedAccounts
  constructor
  · obtain ⟨after, err, hopened⟩ : ∃ after err, newBillingSession plainEnv walletInfo
        subscribedAccounts.toAccounts 30 { plainInputs with wallet := true } plainInputs false =
          some (after, .error err) := ⟨_, _, rfl⟩
    exact ⟨after, err, hopened, hatomic.1 _ _ _ _ _ after err rfl rfl hopened⟩
  · obtain ⟨s', after, message, hreserved⟩ : ∃ s' after message, subscribedSession.reserve plainEnv
        subscribedAccounts.toAccounts 80 { reserveFaults with token := true } =
          (s', after, some message) := ⟨_, _, _, rfl⟩
    exact ⟨s', after, message, hreserved, hatomic.2 _ s' _ _ after message rfl hreserved⟩

end NewApi.Billing
