import NewApi.Subscriptions.Store

/-!
# Accounts and funding sources

The balances a request is paid from, and `service/funding_source.go` over them.
A quota operation of the model layer succeeds or fails without effect; the
flags called `fault` choose which.
-/

namespace NewApi.Billing

open Foundation Subscriptions

structure Token where
  remainQuota : Int
  usedQuota : Int

structure Accounts where
  users : Int → Int
  tokens : Int → Token
  db : SubscriptionDB

/-- What a request finds: the clock, the trust limit, the token quota of its
context and the text form of quotas.  `fuel` bounds the reset loop. -/
structure Env where
  zone : Int
  fuel : Nat
  now : Int
  trustQuota : Int
  contextTokenQuota : Int
  formatQuota : Int → String

def negativeQuota : String := "quota 不能为负数！"

def databaseError : String := SubscriptionError.database.message

namespace Accounts

section

variable (a : Accounts)

def checked (quota : Int) (fault : Bool) (change : Accounts → Accounts) : Except String Accounts :=
  if quota < 0 then .error negativeQuota
  else if fault then .error databaseError
  else .ok (change a)

def chargeUser (id amount : Int) : Accounts :=
  { a with users := Function.update a.users id (a.users id - amount) }

def chargeToken (id amount : Int) : Accounts :=
  { a with
    tokens := Function.update a.tokens id
      { remainQuota := (a.tokens id).remainQuota - amount
        usedQuota := (a.tokens id).usedQuota + amount } }

def increaseUserQuota (id quota : Int) (fault : Bool) : Except String Accounts :=
  a.checked quota fault (·.chargeUser id (-quota))

def decreaseUserQuota (id quota : Int) (fault : Bool) : Except String Accounts :=
  a.checked quota fault (·.chargeUser id quota)

def increaseTokenQuota (id quota : Int) (fault : Bool) : Except String Accounts :=
  a.checked quota fault (·.chargeToken id (-quota))

def decreaseTokenQuota (id quota : Int) (fault : Bool) : Except String Accounts :=
  a.checked quota fault (·.chargeToken id quota)

def postConsumeUserSubscriptionDelta (a : Accounts) (userSubscriptionId delta : Int)
    (fault : Bool) : Except String Accounts :=
  match Subscriptions.postConsumeUserSubscriptionDelta a.db userSubscriptionId delta fault with
  | .error err => .error err.message
  | .ok db => .ok { a with db := db }

def compensate (result : Except String Accounts) : Accounts :=
  match result with
  | .ok after => after
  | .error _ => a

end

end Accounts

inductive BillingSource where
  | wallet
  | subscription
  deriving DecidableEq

structure WalletFunding where
  userId : Int
  consumed : Int

structure SubscriptionFunding where
  requestId : String
  userId : Int
  amount : Int
  subscriptionId : Int
  preConsumed : Int
  amountTotal : Int
  amountUsedAfter : Int

inductive Funding where
  | wallet (funding : WalletFunding)
  | subscription (funding : SubscriptionFunding)

/-- Faults of a refund: of the wallet, of the three attempts of `refundWithRetry`,
of the extra reservation and of the token. -/
structure RefundCallFaults where
  wallet : Bool
  first : RefundFaults
  second : RefundFaults
  third : RefundFaults
  extra : Bool
  token : Bool

namespace Funding

def source : Funding → BillingSource
  | .wallet _ => .wallet
  | .subscription _ => .subscription

/-- `none` if the reset loop runs out of fuel. -/
def preConsume (env : Env) (a : Accounts) (amount : Int) (walletFault : Bool)
    (subscriptionFault : PreConsumeFault) :
    Funding → Option (Except String (Funding × Accounts))
  | .wallet w =>
    if amount ≤ 0 then some (.ok (.wallet w, a))
    else
      match a.decreaseUserQuota w.userId amount walletFault with
      | .error message => some (.error message)
      | .ok paid => some (.ok (.wallet { w with consumed := amount }, paid))
  | .subscription s =>
    match preConsumeUserSubscription env.zone env.fuel a.db env.now s.requestId s.userId
        s.amount subscriptionFault with
    | none => none
    | some (.error err) => some (.error err.message)
    | some (.ok (result, db)) =>
      some (.ok
        (.subscription
          { s with
            subscriptionId := result.userSubscriptionId
            preConsumed := result.preConsumed
            amountTotal := result.amountTotal
            amountUsedAfter := result.amountUsedAfter },
          { a with db := db }))

def settle (a : Accounts) (delta : Int) (fault : Bool) : Funding → Except String Accounts
  | .wallet w =>
    if delta = 0 then .ok a
    else if 0 < delta then a.decreaseUserQuota w.userId delta fault
    else a.increaseUserQuota w.userId (-delta) fault
  | .subscription s =>
    if delta = 0 then .ok a
    else a.postConsumeUserSubscriptionDelta s.subscriptionId delta fault

def refund (a : Accounts) (faults : RefundCallFaults) : Funding → Accounts
  | .wallet w =>
    if w.consumed ≤ 0 then a
    else a.compensate (a.increaseUserQuota w.userId w.consumed faults.wallet)
  | .subscription s =>
    if s.preConsumed ≤ 0 then a
    else
      { a with
        db := (refundWithRetry (fun db => refundSubscriptionPreConsume db s.requestId) a.db
          faults.first faults.second faults.third).1 }

def reserve (a : Accounts) (delta : Int) (fault : Bool) :
    Funding → Except String (Funding × Accounts)
  | .wallet w =>
    match a.decreaseUserQuota w.userId delta fault with
    | .error message => .error message
    | .ok paid => .ok (.wallet { w with consumed := w.consumed + delta }, paid)
  | .subscription s =>
    match a.postConsumeUserSubscriptionDelta s.subscriptionId delta fault with
    | .error message => .error ("订阅额度不足或未配置订阅: " ++ message)
    | .ok paid => .ok (.subscription s, paid)

def rollback (a : Accounts) (delta : Int) (fault : Bool) : Funding → Funding × Accounts
  | .wallet w =>
    match a.increaseUserQuota w.userId delta fault with
    | .error _ => (.wallet w, a)
    | .ok restored => (.wallet { w with consumed := w.consumed - delta }, restored)
  | .subscription s =>
    (.subscription s,
      a.compensate (a.postConsumeUserSubscriptionDelta s.subscriptionId (-delta) fault))

end Funding

/-!
## Billing sessions

`service/billing_session.go`: a session pre-consumes quota when a request
starts, may reserve more of it, and settles or refunds it at the end.
-/

structure RelayInfo where
  requestId : String
  userId : Int
  tokenId : Int
  isPlayground : Bool
  forcePreConsume : Bool
  tokenUnlimited : Bool
  userQuota : Int
  billingPreference : String
  finalPreConsumedQuota : Int
  billingSource : Option BillingSource
  subscriptionId : Int
  subscriptionPreConsumed : Int
  subscriptionPostDelta : Int
  subscriptionAmountTotal : Int
  subscriptionAmountUsedAfterPreConsume : Int

structure BillingSession where
  relayInfo : RelayInfo
  funding : Funding
  preConsumedQuota : Int
  tokenConsumed : Int
  extraReserved : Int
  trusted : Bool
  fundingSettled : Bool
  settled : Bool
  refunded : Bool

inductive ErrorCode where
  | insufficientUserQuota
  | preConsumeTokenQuotaFailed
  | updateDataError
  | queryDataError
  deriving DecidableEq

structure ApiError where
  code : ErrorCode
  message : String

/-- `PreConsumeTokenQuota`; `remain` is what the token lookup answers. -/
def preConsumeTokenQuota (env : Env) (info : RelayInfo) (a : Accounts) (quota : Int)
    (remain : Option Int) (fault : Bool) : Except String Accounts :=
  if quota < 0 then .error negativeQuota
  else if info.isPlayground then .ok a
  else
    match remain with
    | none => .error databaseError
    | some remain =>
      if info.tokenUnlimited = false ∧ remain < quota then
        .error ("token quota is not enough, token remain quota: " ++ env.formatQuota remain ++
          ", need quota: " ++ env.formatQuota quota)
      else a.decreaseTokenQuota info.tokenId quota fault

namespace BillingSession

structure SettleFaults where
  funding : Bool
  token : Bool

section

variable (s : BillingSession)

def adjustToken (a : Accounts) (delta : Int) (fault : Bool) : Except String Accounts :=
  if s.relayInfo.isPlayground then .ok a
  else if 0 < delta then a.decreaseTokenQuota s.relayInfo.tokenId delta fault
  else a.increaseTokenQuota s.relayInfo.tokenId (-delta) fault

def addPostDelta (delta : Int) : BillingSession :=
  if s.funding.source = .subscription then
    { s with
      relayInfo := { s.relayInfo with
        subscriptionPostDelta := s.relayInfo.subscriptionPostDelta + delta } }
  else s

def settle (s : BillingSession) (a : Accounts) (actualQuota : Int) (faults : SettleFaults) :
    BillingSession × Accounts × Option String :=
  if s.settled then (s, a, none)
  else
    let delta := actualQuota - s.preConsumedQuota
    if delta = 0 then ({ s with settled := true }, a, none)
    else
      match if s.fundingSettled then .ok a else s.funding.settle a delta faults.funding with
      | .error message => (s, a, some message)
      | .ok a =>
        let s := { s with fundingSettled := true }
        match s.adjustToken a delta faults.token with
        | .error message => ({ s.addPostDelta delta with settled := true }, a, some message)
        | .ok a => ({ s.addPostDelta delta with settled := true }, a, none)

def needsRefundLocked : Bool :=
  if s.settled || s.refunded || s.fundingSettled then false
  else if 0 < s.tokenConsumed then true
  else
    match s.funding with
    | .subscription sub => decide (0 < sub.preConsumed)
    | .wallet _ => false

def refundFunding (a : Accounts) (faults : RefundCallFaults) : Accounts :=
  let a := s.funding.refund a faults
  if 0 < s.extraReserved ∧ s.funding.source = .subscription ∧ 0 < s.relayInfo.subscriptionId then
    a.compensate (a.postConsumeUserSubscriptionDelta s.relayInfo.subscriptionId
      (-s.extraReserved) faults.extra)
  else a

def returnToken (a : Accounts) (fault : Bool) : Accounts :=
  if 0 < s.tokenConsumed ∧ s.relayInfo.isPlayground = false then
    a.compensate (a.increaseTokenQuota s.relayInfo.tokenId s.tokenConsumed fault)
  else a

def refund (a : Accounts) (faults : RefundCallFaults) : BillingSession × Accounts :=
  if (s.settled || s.refunded || !s.needsRefundLocked) = true then (s, a)
  else ({ s with refunded := true }, s.returnToken (s.refundFunding a faults) faults.token)

def syncRelayInfo : BillingSession :=
  let info := { s.relayInfo with
    finalPreConsumedQuota := s.preConsumedQuota
    billingSource := some s.funding.source }
  match s.funding with
  | .subscription sub =>
    { s with
      relayInfo := { info with
        subscriptionId := sub.subscriptionId
        subscriptionPreConsumed := sub.preConsumed + s.extraReserved
        subscriptionPostDelta := 0
        subscriptionAmountTotal := sub.amountTotal
        subscriptionAmountUsedAfterPreConsume := sub.amountUsedAfter + s.extraReserved } }
  | .wallet _ =>
    { s with relayInfo := { info with subscriptionId := 0, subscriptionPreConsumed := 0 } }

end

structure ReserveFaults where
  funding : Bool
  tokenRemain : Option Int
  token : Bool
  rollback : Bool

def reserveToken (env : Env) (s : BillingSession) (a : Accounts) (delta : Int)
    (faults : ReserveFaults) : Except String Accounts :=
  if delta ≤ 0 ∨ s.relayInfo.isPlayground = true then .ok a
  else preConsumeTokenQuota env s.relayInfo a delta faults.tokenRemain faults.token

def reserve (env : Env) (s : BillingSession) (a : Accounts) (targetQuota : Int)
    (faults : ReserveFaults) : BillingSession × Accounts × Option String :=
  if (s.settled || s.refunded || s.trusted) = true ∨ targetQuota ≤ s.preConsumedQuota then
    (s, a, none)
  else
    let delta := targetQuota - s.preConsumedQuota
    match s.funding.reserve a delta faults.funding with
    | .error message => (s, a, some message)
    | .ok (funding, paid) =>
      match s.reserveToken env paid delta faults with
      | .error message =>
        let (funding, restored) := funding.rollback paid delta faults.rollback
        ({ s with funding := funding }, restored, some message)
      | .ok charged =>
        (syncRelayInfo
          { s with
            funding := funding
            preConsumedQuota := s.preConsumedQuota + delta
            tokenConsumed := s.tokenConsumed + delta
            extraReserved := s.extraReserved + delta },
          charged, none)

structure TryInputs where
  userQuota : Option Int
  tokenRemain : Option Int
  token : Bool
  wallet : Bool
  subscription : PreConsumeFault
  rollback : Bool

def shouldTrust (env : Env) (s : BillingSession) : Bool :=
  if s.relayInfo.forcePreConsume then false
  else if env.trustQuota ≤ 0 then false
  else if s.relayInfo.tokenUnlimited = false ∧ env.contextTokenQuota ≤ env.trustQuota then false
  else
    match s.funding.source with
    | .wallet => decide (env.trustQuota < s.relayInfo.userQuota)
    | .subscription => false

def mentions (message text : String) : Bool := decide (text.toList <:+: message.toList)

def fundingError (message : String) : ApiError :=
  if (mentions message "no active subscription" ||
      mentions message "subscription quota insufficient") = true then
    ⟨.insufficientUserQuota, "订阅额度不足或未配置订阅: " ++ message⟩
  else ⟨.updateDataError, message⟩

def preConsumeToken (env : Env) (s : BillingSession) (a : Accounts) (effectiveQuota : Int)
    (inputs : TryInputs) : Except String (BillingSession × Accounts) :=
  if 0 < effectiveQuota then
    match preConsumeTokenQuota env s.relayInfo a effectiveQuota inputs.tokenRemain inputs.token with
    | .error message => .error message
    | .ok charged => .ok ({ s with tokenConsumed := effectiveQuota }, charged)
  else .ok (s, a)

def preConsume (env : Env) (s : BillingSession) (a : Accounts) (quota : Int)
    (inputs : TryInputs) : Option (Accounts × Except ApiError BillingSession) :=
  let trusted := s.shouldTrust env
  let effectiveQuota := if trusted = true then 0 else quota
  match { s with trusted := trusted }.preConsumeToken env a effectiveQuota inputs with
  | .error message => some (a, .error ⟨.preConsumeTokenQuotaFailed, message⟩)
  | .ok (s, charged) =>
    match s.funding.preConsume env charged effectiveQuota inputs.wallet inputs.subscription with
    | none => none
    | some (.error message) =>
      some (s.returnToken charged inputs.rollback, .error (fundingError message))
    | some (.ok (funding, paid)) =>
      some (paid, .ok
        { s with funding := funding, preConsumedQuota := effectiveQuota }.syncRelayInfo)

end BillingSession

inductive BillingPreference where
  | subscriptionFirst
  | walletFirst
  | subscriptionOnly
  | walletOnly

def normalizeBillingPreference (pref : String) : BillingPreference :=
  match trimSpace pref with
  | "wallet_first" => .walletFirst
  | "subscription_only" => .subscriptionOnly
  | "wallet_only" => .walletOnly
  | _ => .subscriptionFirst

def BillingSession.fresh (info : RelayInfo) (funding : Funding) : BillingSession where
  relayInfo := info
  funding := funding
  preConsumedQuota := 0
  tokenConsumed := 0
  extraReserved := 0
  trusted := false
  fundingSettled := false
  settled := false
  refunded := false

def tryWallet (env : Env) (info : RelayInfo) (a : Accounts) (quota : Int)
    (inputs : BillingSession.TryInputs) : Option (Accounts × Except ApiError BillingSession) :=
  match inputs.userQuota with
  | none => some (a, .error ⟨.queryDataError, databaseError⟩)
  | some userQuota =>
    if userQuota ≤ 0 then
      some (a, .error ⟨.insufficientUserQuota, "用户额度不足, 剩余额度: " ++ env.formatQuota userQuota⟩)
    else if userQuota - quota < 0 then
      some (a, .error ⟨.insufficientUserQuota,
        "预扣费额度失败, 用户剩余额度: " ++ env.formatQuota userQuota ++ ", 需要预扣费额度: " ++ env.formatQuota quota⟩)
    else
      (BillingSession.fresh { info with userQuota := userQuota }
        (.wallet { userId := info.userId, consumed := 0 })).preConsume env a quota inputs

def subConsume (quota : Int) : Int :=
  if quota ≤ 0 then 1 else quota

def trySubscription (env : Env) (info : RelayInfo) (a : Accounts) (quota : Int)
    (inputs : BillingSession.TryInputs) : Option (Accounts × Except ApiError BillingSession) :=
  (BillingSession.fresh info
    (.subscription
      { requestId := info.requestId
        userId := info.userId
        amount := subConsume quota
        subscriptionId := 0
        preConsumed := 0
        amountTotal := 0
        amountUsedAfter := 0 })).preConsume env a (subConsume quota) inputs

def orElse (first : Option (Accounts × Except ApiError BillingSession))
    (second : Accounts → Option (Accounts × Except ApiError BillingSession)) :
    Option (Accounts × Except ApiError BillingSession) :=
  match first with
  | some (a, .error err) =>
    if err.code = .insufficientUserQuota then second a else some (a, .error err)
  | result => result

def hasActiveUserSubscription (env : Env) (a : Accounts) (userId : Int) (fault : Bool) :
    Except String Bool :=
  if userId ≤ 0 then .error SubscriptionError.invalidUserId.message
  else if fault then .error databaseError
  else .ok (decide (0 < (a.db.activeSubs userId env.now).length))

def newBillingSession (env : Env) (info : RelayInfo) (a : Accounts) (quota : Int)
    (wallet subscription : BillingSession.TryInputs) (hasSubFault : Bool) :
    Option (Accounts × Except ApiError BillingSession) :=
  match normalizeBillingPreference info.billingPreference with
  | .subscriptionOnly => trySubscription env info a quota subscription
  | .walletOnly => tryWallet env info a quota wallet
  | .walletFirst =>
    orElse (tryWallet env info a quota wallet)
      fun a => trySubscription env info a quota subscription
  | .subscriptionFirst =>
    match hasActiveUserSubscription env a info.userId hasSubFault with
    | .error message => some (a, .error ⟨.queryDataError, message⟩)
    | .ok false => tryWallet env info a quota wallet
    | .ok true =>
      orElse (trySubscription env info a quota subscription)
        fun a => tryWallet env info a quota wallet

end NewApi.Billing
