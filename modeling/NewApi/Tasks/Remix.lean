import NewApi.Foundation.Decimal
import NewApi.Foundation.GoString
import NewApi.Foundation.Table

/-!
# Remixed tasks

`ResolveOriginTask` and `RelayTaskSubmit` of `relay/relay_task.go`, the price of
`relay/helper/price.go` and the loop of `controller/relay.go` around them.  The
ratios of the origin task are read before the loop, and the price that each attempt
computes takes their place.
-/

namespace NewApi.Remix

open Foundation List

/-! ## Prices -/

abbrev Ratios := Table (String × ℚ) Prod.fst

def noRatios : Ratios := ⟨[], nodup_nil⟩

structure MapOrder where
  visit : List (String × ℚ) → List (String × ℚ)
  perm : ∀ l, (visit l).Perm l

structure PriceData where
  freeModel : Bool := false
  modelPrice : ℚ := 0
  modelRatio : ℚ := 0
  otherRatios : Ratios := noRatios
  usePrice : Bool := false
  quota : Int := 0
  groupRatio : ℚ := 0

def PriceData.addOtherRatio (p : PriceData) (ratio : String × ℚ) : PriceData :=
  if ratio.2 ≤ 0 then p else { p with otherRatios := p.otherRatios.put ratio }

structure Settings where
  getModelPrice : String → Option ℚ
  defaultModelPrice : String → Option ℚ
  /-- The ratio, whether it counts as set, and the name that was looked up. -/
  getModelRatio : String → ℚ × Bool × String
  acceptUnsetRatioModel : Bool
  quotaPerUnit : ℚ
  groupRatio : ℚ
  enableFreeModelPreConsume : Bool
  taskPricePatches : List String

inductive TaskError where
  | invalidRequest
  | getOriginTaskFailed
  | taskNotExist
  | channelNotFound
  | taskChannelDisable
  | channelNoAvailableKey
  | setupLockedChannelFailed
  | readRequestBodyFailed
  | modelMappingFailed
  | modelPriceError (matchName : String)
  | preConsumeFailed
  | buildRequestFailed
  | doRequestFailed
  | failToFetchTask (statusCode : Int)
  | badResponse
  deriving DecidableEq

def perCallQuota (settings : Settings) (amount quota : ℚ) : Int × Bool :=
  if settings.enableFreeModelPreConsume = false ∧ (settings.groupRatio = 0 ∨ amount = 0) then
    (0, true)
  else (truncate (quota * settings.quotaPerUnit * settings.groupRatio), false)

def modelPriceHelperPerCall (settings : Settings) (originModelName : String) :
    Except TaskError PriceData :=
  let price :=
    (settings.getModelPrice originModelName).or (settings.defaultModelPrice originModelName)
  match price with
  | some modelPrice =>
    let charge := perCallQuota settings modelPrice modelPrice
    .ok
      { freeModel := charge.2, modelPrice := modelPrice, usePrice := true, quota := charge.1
        groupRatio := settings.groupRatio }
  | none =>
    let (modelRatio, ratioSuccess, matchName) := settings.getModelRatio originModelName
    if ratioSuccess = false ∧ settings.acceptUnsetRatioModel = false then
      .error (.modelPriceError matchName)
    else
      -- half of the ratio is taken in advance
      let charge := perCallQuota settings modelRatio (modelRatio / 2)
      .ok
        { freeModel := charge.2, modelPrice := -1, modelRatio := modelRatio, quota := charge.1
          groupRatio := settings.groupRatio }

/-! ## The origin task -/

inductive Action where
  | remix
  | other (name : String)
  deriving DecidableEq

def Action.name : Action → String
  | .remix => "remixGenerate"
  | .other name => name

structure TaskBillingContext where
  modelPrice : ℚ
  groupRatio : ℚ
  modelRatio : ℚ
  otherRatios : Ratios
  originModelName : String
  perCallBilling : Bool

structure TaskData where
  model : Option String
  seconds : Option String
  size : Option String

structure OriginTask where
  channelId : Nat
  originModelName : String
  upstreamModelName : String
  data : TaskData
  billingContext : Option TaskBillingContext

structure OriginChannel where
  enabled : Bool
  nextKey : Option String

structure Database where
  getByTaskId : Nat → String → Except String (Option OriginTask)
  getChannelById : Nat → Option OriginChannel

structure RelayInfo where
  userId : Nat
  action : Action
  originTaskID : String
  originModelName : String
  channelId : Nat
  apiKey : String
  priceData : PriceData
  /-- The quota that the billing session has taken in advance. -/
  billing : Option Int

structure SubmitRequest where
  path : String
  videoID : String

def remixPath (path : String) : Bool := contains path "/v1/videos/" && hasSuffix path "/remix"

def OriginTask.modelName (task : OriginTask) : String :=
  if task.originModelName ≠ "" then task.originModelName
  else if task.upstreamModelName ≠ "" then task.upstreamModelName
  else task.data.model.getD ""

def largeSize (size : String) : Bool := decide (size = "1792x1024" ∨ size = "1024x1792")

section

variable (atoi : String → Int)

def secondsRatio (seconds : Int) : ℚ := if seconds ≤ 0 then 4 else seconds

def remixPrice (order : MapOrder) (task : OriginTask) (price : PriceData) : PriceData :=
  match task.billingContext with
  | some context => (order.visit context.otherRatios.rows).foldl PriceData.addOtherRatio price
  | none =>
    let seconds := secondsRatio (atoi (task.data.seconds.getD ""))
    let size : ℚ := if largeSize (task.data.size.getD "") = true then 1.666667 else 1
    { price with
      otherRatios := (price.otherRatios.put ("seconds", seconds)).put ("size", size) }

def resolveOriginTask (db : Database) (order : MapOrder) (request : SubmitRequest)
    (info : RelayInfo) : Except TaskError RelayInfo :=
  let action := if remixPath request.path = true then .remix else info.action
  if action = .remix ∧ trimSpace request.videoID = "" then .error .invalidRequest
  else
    let originTaskID := if action = .remix then request.videoID else info.originTaskID
    let info := { info with action := action, originTaskID := originTaskID }
    if originTaskID = "" then .ok info
    else
      match db.getByTaskId info.userId originTaskID with
      | .error _ => .error .getOriginTaskFailed
      | .ok none => .error .taskNotExist
      | .ok (some task) =>
        let modelName := if info.originModelName = "" then task.modelName
          else info.originModelName
        match db.getChannelById task.channelId with
        | none => .error .channelNotFound
        | some channel =>
          if channel.enabled = false then .error .taskChannelDisable
          else
            let apiKey := if task.channelId ≠ info.channelId then channel.nextKey
              else some info.apiKey
            match apiKey with
            | none => .error .channelNoAvailableKey
            | some apiKey =>
              .ok
                { info with
                  originModelName := modelName
                  channelId := task.channelId
                  apiKey := apiKey
                  priceData :=
                    if action = .remix then remixPrice atoi order task info.priceData
                    else info.priceData }

end

/-! ## One attempt -/

structure TaskAdaptor where
  platform : String
  validateRequestAndSetAction : Action → Except TaskError Action
  estimateBilling : Action → Ratios

/-- `BaseBilling`, which every adaptor embeds and none overrides here. -/
def adjustBillingOnSubmit : Ratios := noRatios

structure Attempt where
  setup : Option TaskError := none
  modelMapped : Option TaskError := none
  preConsume : Option TaskError := none
  upstream : Option TaskError := none
  /-- Whether the failed attempt is followed by another. -/
  again : Bool := false
  estimated : MapOrder
  applied : MapOrder
  divided : MapOrder
  multiplied : MapOrder

def coverTaskActionToModelName (platform : String) (action : Action) : String :=
  platform.toLower ++ "_" ++ action.name.toLower

def applyRatios (ratios : List (String × ℚ)) (quota : Int) : Int :=
  ratios.foldl (fun quota ratio => if ratio.2 ≠ 1 then truncate (quota * ratio.2) else quota) quota

def recalcQuotaFromRatios (attempt : Attempt) (price : PriceData) (ratios : Ratios) : Int :=
  let baseQuota := (attempt.divided.visit price.otherRatios.rows).foldl
    (fun quota ratio => if ratio.2 ≠ 1 ∧ ratio.2 > 0 then truncate (quota / ratio.2) else quota)
    price.quota
  truncate ((attempt.multiplied.visit ratios.rows).foldl
    (fun quota ratio => if ratio.2 ≠ 1 then quota * ratio.2 else quota) baseQuota)

def modelNameFor (adaptor : TaskAdaptor) (info : RelayInfo) : String :=
  if info.originModelName = "" then coverTaskActionToModelName adaptor.platform info.action
  else info.originModelName

section

variable (settings : Settings) (adaptor : TaskAdaptor) (attempt : Attempt)

def attemptPrice (action : Action) (modelName : String) (base : PriceData) : PriceData :=
  let price := (attempt.estimated.visit (adaptor.estimateBilling action).rows).foldl
    PriceData.addOtherRatio base
  if modelName ∈ settings.taskPricePatches then price
  else
    { price with quota := applyRatios (attempt.applied.visit price.otherRatios.rows) price.quota }

def finalPrice (price : PriceData) : PriceData :=
  if adjustBillingOnSubmit.rows.length > 0 then
    { price with
      otherRatios := adjustBillingOnSubmit
      quota := recalcQuotaFromRatios attempt price adjustBillingOnSubmit }
  else price

def relayTaskSubmit (info : RelayInfo) : RelayInfo × Except TaskError Int :=
  match adaptor.validateRequestAndSetAction info.action with
  | .error e => (info, .error e)
  | .ok action =>
    let modelName := modelNameFor adaptor { info with action := action }
    let info := { info with action := action, originModelName := modelName }
    match attempt.modelMapped with
    | some e => (info, .error e)
    | none =>
      match modelPriceHelperPerCall settings modelName with
      | .error e => (info, .error e)
      | .ok base =>
        let price := attemptPrice settings adaptor attempt action modelName base
        let info := { info with priceData := price }
        -- the charge in advance, by the first attempt only
        match info.billing, price.freeModel, attempt.preConsume with
        | none, false, some e => (info, .error e)
        | billing, freeModel, _ =>
          let taken := if billing = none ∧ freeModel = false then some price.quota
            else billing
          match attempt.upstream with
          | some e => ({ info with billing := taken }, .error e)
          | none =>
            let price := finalPrice attempt price
            ({ info with billing := taken, priceData := price }, .ok price.quota)

end

/-! ## The submission -/

section

variable (settings : Settings) (adaptor : TaskAdaptor)

def submitLoop (info : RelayInfo) (attempt : Attempt) (later : List Attempt) :
    RelayInfo × Except TaskError Int :=
  match attempt.setup with
  | some e => (info, .error e)
  | none =>
    match relayTaskSubmit settings adaptor attempt info with
    | (info', .ok quota) => (info', .ok quota)
    | (info', .error e) =>
      match later with
      | [] => (info', .error e)
      | next :: later =>
        if attempt.again = true then submitLoop info' next later else (info', .error e)

structure Submitted where
  preConsumed : Option Int
  quota : Int
  billingContext : TaskBillingContext

def relayTask (atoi : String → Int) (db : Database) (order : MapOrder) (request : SubmitRequest)
    (info : RelayInfo) (first : Attempt) (later : List Attempt) : Except TaskError Submitted :=
  match resolveOriginTask atoi db order request info with
  | .error e => .error e
  | .ok info =>
    match submitLoop settings adaptor info first later with
    | (_, .error e) => .error e
    | (info, .ok quota) =>
      .ok
        { preConsumed := info.billing
          quota := quota
          billingContext :=
            { modelPrice := info.priceData.modelPrice
              groupRatio := info.priceData.groupRatio
              modelRatio := info.priceData.modelRatio
              otherRatios := info.priceData.otherRatios
              originModelName := info.originModelName
              perCallBilling := decide (info.originModelName ∈ settings.taskPricePatches) ||
                info.priceData.usePrice } }

end

structure QuietOnRemix (adaptor : TaskAdaptor) : Prop where
  action : ∀ action, adaptor.validateRequestAndSetAction .remix = .ok action → action = .remix
  estimate : (adaptor.estimateBilling .remix).rows = []

structure TaskSubmitReq where
  prompt : String
  seconds : String := ""
  duration : Int := 0
  size : String := ""

/-- The adaptor of `relay/channel/task/sora`, with the request and the validation of those that
are no remixes. -/
def sora (atoi : String → Int) (request : Option TaskSubmitReq)
    (validateMultipartDirect : Action → Except TaskError Action) : TaskAdaptor where
  platform := "55"
  validateRequestAndSetAction := fun action =>
    if action = .remix then
      match request with
      | none => .error .invalidRequest
      | some req => if trimSpace req.prompt = "" then .error .invalidRequest else .ok .remix
    else validateMultipartDirect action
  estimateBilling := fun action =>
    match action, request with
    | .remix, _ => noRatios
    | .other _, none => noRatios
    | .other _, some req =>
      let seconds := if atoi req.seconds = 0 then req.duration else atoi req.seconds
      let size := if req.size = "" then "720x1280" else req.size
      (noRatios.put ("seconds", secondsRatio seconds)).put
        ("size", if largeSize size = true then 1.666667 else 1)

private theorem quietOnRemix_sora (atoi : String → Int) (request : Option TaskSubmitReq)
    (validateMultipartDirect : Action → Except TaskError Action) :
    QuietOnRemix (sora atoi request validateMultipartDirect) := by
  refine ⟨fun action haction => ?_, rfl⟩
  simp only [sora, if_true] at haction
  split at haction
  · cases haction
  split at haction
  · cases haction
  · exact (Except.ok.inj haction).symm

/-! ## What an attempt keeps -/

theorem MapOrder.visit_nil (order : MapOrder) : order.visit [] = [] := (order.perm []).eq_nil

theorem modelPriceHelperPerCall_ok {settings : Settings} {modelName : String} {base : PriceData}
    (h : modelPriceHelperPerCall settings modelName = .ok base) :
    base.otherRatios = noRatios ∧ base.groupRatio = settings.groupRatio := by
  unfold modelPriceHelperPerCall at h
  dsimp only at h
  split at h
  · cases h
    exact ⟨rfl, rfl⟩
  · split at h
    · cases h
    · cases h
      exact ⟨rfl, rfl⟩

private theorem modelNameFor_set (adaptor : TaskAdaptor) (info : RelayInfo) :
    modelNameFor adaptor { info with originModelName := modelNameFor adaptor info } =
      modelNameFor adaptor info := by
  by_cases hempty : info.originModelName = ""
  · simp only [modelNameFor, if_pos hempty]
    split <;> rfl
  · simp [modelNameFor, if_neg hempty]

section

variable {settings : Settings} {adaptor : TaskAdaptor} {attempt : Attempt} {name : String}

private theorem attemptPrice_of_quiet (hquiet : QuietOnRemix adaptor) {base : PriceData}
    (hbase : base.otherRatios = noRatios) :
    attemptPrice settings adaptor attempt .remix name base = base := by
  unfold attemptPrice
  rw [hquiet.estimate, MapOrder.visit_nil, foldl_nil]
  split
  · rfl
  have hrows : base.otherRatios.rows = [] := by
    rw [hbase]
    rfl
  dsimp only
  rw [hrows, MapOrder.visit_nil]
  rfl

structure Kept (settings : Settings) (adaptor : TaskAdaptor) (name : String) (info : RelayInfo) :
    Prop where
  action : info.action = .remix
  modelName : modelNameFor adaptor info = name
  billing : ∀ quota, info.billing = some quota →
    ∃ base, modelPriceHelperPerCall settings name = .ok base ∧ quota = base.quota

def KeptResult (settings : Settings) (adaptor : TaskAdaptor) (name : String)
    (result : RelayInfo × Except TaskError Int) : Prop :=
  Kept settings adaptor name result.1 ∧ ∀ quota, result.2 = .ok quota →
    result.1.originModelName = name ∧ result.1.priceData.otherRatios = noRatios

variable {info info' : RelayInfo} {later : List Attempt} {quota : Int}

theorem Kept.failed (h : Kept settings adaptor name info) (e : TaskError) :
    KeptResult settings adaptor name (info, .error e) := by
  refine ⟨h, fun quota hquota => ?_⟩
  cases hquota

theorem relayTaskSubmit_kept (hquiet : QuietOnRemix adaptor) (attempt : Attempt)
    (h : Kept settings adaptor name info) :
    KeptResult settings adaptor name (relayTaskSubmit settings adaptor attempt info) := by
  unfold relayTaskSubmit
  rw [h.action]
  split
  · exact h.failed _
  next action haction =>
  obtain rfl := hquiet.action action haction
  have hname : modelNameFor adaptor { info with action := .remix } = name := by
    rw [← h.action]
    exact h.modelName
  have hset : modelNameFor adaptor { info with action := .remix, originModelName := name } =
      name := by
    have hagain := modelNameFor_set adaptor { info with action := .remix }
    rwa [hname] at hagain
  dsimp only
  rw [hname]
  split
  · exact Kept.failed ⟨rfl, hset, h.billing⟩ _
  split
  · exact Kept.failed ⟨rfl, hset, h.billing⟩ _
  next base hprice =>
  have hratios := (modelPriceHelperPerCall_ok hprice).1
  rw [attemptPrice_of_quiet hquiet hratios]
  split
  · refine Kept.failed ?_ _
    exact ⟨rfl, hset, h.billing⟩
  have htaken : ∀ quota, (if info.billing = none ∧ base.freeModel = false
      then some base.quota else info.billing) = some quota →
      ∃ base, modelPriceHelperPerCall settings name = .ok base ∧ quota = base.quota := by
    intro quota hquota
    split at hquota
    · exact ⟨base, hprice, (Option.some.inj hquota).symm⟩
    · exact h.billing quota hquota
  split
  · refine Kept.failed ?_ _
    exact ⟨rfl, hset, htaken⟩
  · exact ⟨⟨rfl, hset, htaken⟩, fun quota _ => ⟨rfl, hratios⟩⟩

theorem submitLoop_cases (h : submitLoop settings adaptor info attempt later = (info', .ok quota)) :
    relayTaskSubmit settings adaptor attempt info = (info', .ok quota) ∨
      ∃ next rest, later = next :: rest ∧
        submitLoop settings adaptor (relayTaskSubmit settings adaptor attempt info).1 next rest =
          (info', .ok quota) := by
  unfold submitLoop at h
  split at h
  · cases h
  split at h
  · next after quota' hattempt => exact .inl (hattempt.trans h)
  next after e hattempt =>
  split at h
  · cases h
  next next rest =>
  split at h
  · exact .inr ⟨next, rest, rfl, by rwa [hattempt]⟩
  · cases h

theorem submitLoop_kept (hquiet : QuietOnRemix adaptor) (h : Kept settings adaptor name info)
    (hloop : submitLoop settings adaptor info attempt later = (info', .ok quota)) :
    Kept settings adaptor name info' ∧ info'.originModelName = name ∧
      info'.priceData.otherRatios = noRatios := by
  induction later generalizing info attempt with
  | nil =>
    have hresult := relayTaskSubmit_kept hquiet attempt h
    obtain hlast | ⟨next, rest, hlater, -⟩ := submitLoop_cases hloop
    · rw [hlast] at hresult
      exact ⟨hresult.1, hresult.2 quota rfl⟩
    · cases hlater
  | cons next later ih =>
    have hresult := relayTaskSubmit_kept hquiet attempt h
    obtain hlast | ⟨_, _, hlater, hrest⟩ := submitLoop_cases hloop
    · rw [hlast] at hresult
      exact ⟨hresult.1, hresult.2 quota rfl⟩
    · cases hlater
      exact ih hresult.1 hrest

end

/-! ## The ratios of the origin -/

private theorem otherRatios_foldl {ratios : List (String × ℚ)} (h : ∀ ratio ∈ ratios, 0 < ratio.2)
    (price : PriceData) :
    (ratios.foldl PriceData.addOtherRatio price).otherRatios =
      ratios.foldl Table.put price.otherRatios := by
  induction ratios generalizing price with
  | nil => rfl
  | cons ratio ratios ih =>
    obtain ⟨hfirst, hrest⟩ := forall_mem_cons.mp h
    rw [foldl_cons, foldl_cons, ih hrest, PriceData.addOtherRatio, if_neg (not_le.mpr hfirst)]

variable {task : OriginTask} {db : Database} {order : MapOrder} {request : SubmitRequest}
  {info resolved : RelayInfo}

private theorem relayTask_remix {settings : Settings} {adaptor : TaskAdaptor}
    (hquiet : QuietOnRemix adaptor) {atoi : String → Int} {first : Attempt} {later : List Attempt}
    {submitted : Submitted}
    (hresolved : resolveOriginTask atoi db order request info = .ok resolved)
    (haction : resolved.action = .remix) (hbilling : resolved.billing = none)
    (h : relayTask settings adaptor atoi db order request info first later = .ok submitted) :
    submitted.billingContext.otherRatios = noRatios ∧
      ∀ quota, submitted.preConsumed = some quota →
        ∃ base, modelPriceHelperPerCall settings submitted.billingContext.originModelName =
          .ok base ∧ quota = base.quota := by
  have hstart : Kept settings adaptor (modelNameFor adaptor resolved) resolved := by
    refine ⟨haction, rfl, fun quota hquota => ?_⟩
    rw [hbilling] at hquota
    cases hquota
  unfold relayTask at h
  rw [hresolved] at h
  dsimp only at h
  split at h
  · cases h
  next after quota hloop =>
  obtain ⟨hkept, hname, hratios⟩ := submitLoop_kept hquiet hstart hloop
  cases h
  refine ⟨hratios, ?_⟩
  rw [hname]
  exact hkept.billing

/-- The charge in advance is that of the model times the ratios, cut off at each step in some
order, and the new task has the ratios itself. -/
def Inherits (settings : Settings) (ratios : Ratios) (submitted : Submitted) : Prop :=
  (∀ base, modelPriceHelperPerCall settings submitted.billingContext.originModelName = .ok base →
    ∀ quota, submitted.preConsumed = some quota →
      ∃ order : List (String × ℚ), order.Perm ratios.rows ∧ quota = applyRatios order base.quota) ∧
  ∀ ratio ∈ ratios.rows, ratio ∈ submitted.billingContext.otherRatios.rows

/--
The ratios of the origin are read before the first attempt, and a remix inherits them
exactly when there are none.
-/
theorem remix_inherits_iff (settings : Settings) (adaptor : TaskAdaptor)
    (hquiet : QuietOnRemix adaptor) (atoi : String → Int) (db : Database) (order : MapOrder)
    (request : SubmitRequest) (hpath : remixPath request.path = true) (info : RelayInfo)
    (hbilling : info.billing = none) (task : OriginTask)
    (htask : db.getByTaskId info.userId request.videoID = .ok (some task))
    (context : TaskBillingContext) (hcontext : task.billingContext = some context)
    (hpos : ∀ ratio ∈ context.otherRatios.rows, 0 < ratio.2) (first : Attempt)
    (later : List Attempt) (submitted : Submitted)
    (hsubmitted : relayTask settings adaptor atoi db order request info first later =
      .ok submitted) :
    (∃ resolved, resolveOriginTask atoi db order request info = .ok resolved ∧
      ∀ ratio ∈ context.otherRatios.rows, ratio ∈ resolved.priceData.otherRatios.rows) ∧
    (Inherits settings context.otherRatios submitted ↔ context.otherRatios.rows = []) := by
  obtain ⟨resolved, hresolved⟩ :
      ∃ resolved, resolveOriginTask atoi db order request info = .ok resolved := by
    cases hresolve : resolveOriginTask atoi db order request info with
    | error =>
      rw [relayTask, hresolve] at hsubmitted
      cases hsubmitted
    | ok resolved => exact ⟨resolved, rfl⟩
  obtain ⟨haction, hunbilled, hprice⟩ : resolved.action = .remix ∧
      resolved.billing = info.billing ∧
      resolved.priceData = remixPrice atoi order task info.priceData := by
    have h := hresolved
    unfold resolveOriginTask at h
    simp only [hpath, if_true, true_and, htask] at h
    split at h
    · cases h
    next hvideo =>
    have hnamed : request.videoID ≠ "" := by
      intro hempty
      exact hvideo (by rw [hempty]; rfl)
    rw [if_neg hnamed] at h
    split at h
    · cases h
    split at h
    · cases h
    split at h
    · cases h
    · cases h
      exact ⟨rfl, rfl, rfl⟩
  obtain ⟨hratios, hquota⟩ :=
    relayTask_remix hquiet hresolved haction (hunbilled.trans hbilling) hsubmitted
  refine ⟨⟨resolved, hresolved, fun ratio hratio => ?_⟩, ?_, ?_⟩
  · rw [hprice]
    have hperm := order.perm context.otherRatios.rows
    unfold remixPrice
    rw [hcontext]
    dsimp only
    rw [otherRatios_foldl fun other hother => hpos other (hperm.mem_iff.mp hother)]
    refine Table.mem_foldl_put _ ?_ (hperm.mem_iff.mpr hratio)
    exact (hperm.map Prod.fst).nodup_iff.mpr context.otherRatios.nodup
  · rintro ⟨-, hstored⟩
    refine eq_nil_iff_forall_not_mem.mpr fun ratio hratio => ?_
    have hmem := hstored ratio hratio
    rw [hratios] at hmem
    cases hmem
  · intro hnone
    rw [Inherits, hnone]
    refine ⟨fun base hbase quota htaken => ⟨[], List.Perm.nil, ?_⟩, fun ratio hratio => ?_⟩
    · obtain ⟨base', hbase', rfl⟩ := hquota quota htaken
      obtain rfl := Except.ok.inj (hbase'.symm.trans hbase)
      rfl
    · cases hratio

/-! A video of eight seconds at a price of a tenth for each call. -/

def tenthPerCall : Settings where
  getModelPrice := fun _ => some (1 / 10)
  defaultModelPrice := fun _ => none
  getModelRatio := fun name => (0, false, name)
  acceptUnsetRatioModel := false
  quotaPerUnit := 500000
  groupRatio := 1
  enableFreeModelPreConsume := true
  taskPricePatches := []

def originDatabase (ratios : Ratios) : Database where
  getByTaskId := fun _ _ => .ok (some ⟨3, "sora-2", "", ⟨none, none, none⟩,
    some ⟨1 / 10, 1, 0, ratios, "sora-2", true⟩⟩)
  getChannelById := fun _ => some ⟨true, some "sk"⟩

def inOrder : MapOrder := ⟨id, fun _ => List.Perm.refl _⟩

def remixAttempt : Attempt where
  estimated := inOrder
  applied := inOrder
  divided := inOrder
  multiplied := inOrder

def remixInfo : RelayInfo := ⟨1, .other "", "", "", 3, "sk", {}, none⟩

def remixSubmission (ratios : Ratios) : Except TaskError Submitted :=
  relayTask tenthPerCall (sora (fun _ => 0) (some { prompt := "again" }) .ok) (fun _ => 0)
    (originDatabase ratios) inOrder ⟨"/v1/videos/task_1/remix", "task_1"⟩ remixInfo remixAttempt
    [remixAttempt]

theorem remix_inherits_no_ratios :
    ∃ submitted, remixSubmission noRatios = .ok submitted ∧
      Inherits tenthPerCall noRatios submitted := by
  have hsome : (remixSubmission noRatios).toOption.isSome = true := by decide +kernel
  cases hsubmitted : remixSubmission noRatios with
  | error =>
    rw [hsubmitted] at hsome
    cases hsome
  | ok submitted =>
    refine ⟨submitted, rfl, (remix_inherits_iff tenthPerCall
      (sora (fun _ => 0) (some { prompt := "again" }) .ok) (quietOnRemix_sora _ _ _)
      (fun _ => 0) (originDatabase noRatios) inOrder ⟨"/v1/videos/task_1/remix", "task_1"⟩
      (by decide) remixInfo rfl _ rfl _ rfl ?_ remixAttempt [remixAttempt] submitted
      hsubmitted).2.mpr rfl⟩
    intro ratio hratio
    cases hratio

/-- Of eight seconds neither the charge nor the new task knows. -/
theorem remix_loses_seconds :
    (remixSubmission (noRatios.put ("seconds", 8))).map
        (fun submitted => (submitted.preConsumed, submitted.billingContext.otherRatios.rows)) =
      .ok (some 50000, []) ∧
    ∀ order : List (String × ℚ), order.Perm (noRatios.put ("seconds", 8)).rows →
      applyRatios order 50000 = 400000 := by
  constructor
  · decide +kernel
  · intro order horder
    obtain rfl : order = [("seconds", 8)] := perm_singleton.mp horder
    decide +kernel

end NewApi.Remix
