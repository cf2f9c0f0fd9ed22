import NewApi.Tasks.Model
import NewApi.Tasks.Ratios

/-!
# The group ratio of a task

`HandleGroupRatio` of `relay/helper/price.go`, which sees the group of the user and the
group in use when a task is submitted, and `RecalculateTaskQuotaByTokens` of
`service/task_billing.go`, which looks the ratio up again from the group that the task
has stored.
-/

namespace NewApi.Remix

open Foundation

structure GroupSettings where
  groupRatioMap : String → Option ℚ
  groupGroupRatioMap : String → Option (String → Option ℚ)

open GroupSettings

namespace GroupSettings

variable (groups : GroupSettings)

def getGroupRatio (name : String) : ℚ := (groups.groupRatioMap name).getD 1

def getGroupGroupRatio (userGroup usingGroup : String) : Option ℚ :=
  (groups.groupGroupRatioMap userGroup).bind fun ratios => ratios usingGroup

end GroupSettings

structure GroupRatioInfo where
  groupRatio : ℚ := 1
  groupSpecialRatio : ℚ := -1
  hasSpecialRatio : Bool := false

structure RequestGroups where
  userGroup : String
  usingGroup : String

def handleGroupRatio (groups : GroupSettings) (autoGroup : Option String)
    (request : RequestGroups) : RequestGroups × GroupRatioInfo :=
  let request := { request with usingGroup := autoGroup.getD request.usingGroup }
  match groups.getGroupGroupRatio request.userGroup request.usingGroup with
  | some ratio =>
    (request, { groupRatio := ratio, groupSpecialRatio := ratio, hasSpecialRatio := true })
  | none => (request, { groupRatio := groups.getGroupRatio request.usingGroup })

def Settings.inGroup (settings : Settings) (info : GroupRatioInfo) : Settings :=
  { settings with groupRatio := info.groupRatio }

structure StoredTask where
  userId : Nat
  group : String
  originModelName : String
  billingContext : Option TaskBillingContext

def initTask (userId : Nat) (request : RequestGroups) (submitted : Submitted) : StoredTask where
  userId := userId
  group := request.usingGroup
  originModelName := submitted.billingContext.originModelName
  billingContext := some submitted.billingContext

def taskModelName (task : StoredTask) : String :=
  match task.billingContext with
  | some context =>
    if context.originModelName ≠ "" then context.originModelName else task.originModelName
  | none => task.originModelName

structure TokenRecalculation where
  totalTokens : Int
  modelRatio : ℚ
  groupRatio : ℚ
  otherMultiplier : ℚ

def TokenRecalculation.actualQuota (r : TokenRecalculation) : Int :=
  truncate (r.totalTokens * r.modelRatio * r.groupRatio * r.otherMultiplier)

def otherMultiplier (order : MapOrder) (task : StoredTask) : ℚ :=
  match task.billingContext with
  | some context => (order.visit context.otherRatios.rows).foldl
      (fun product ratio => if ratio.2 ≠ 1 ∧ ratio.2 > 0 then product * ratio.2 else product) 1
  | none => 1

section

variable (groups : GroupSettings) (getModelRatio : String → ℚ × Bool × String)
  (getUserById : Nat → Option String) (order : MapOrder)

def completionGroup (task : StoredTask) : String :=
  if task.group = "" then (getUserById task.userId).getD "" else task.group

def finalGroupRatio (group : String) : ℚ :=
  match groups.getGroupGroupRatio group group with
  | some userGroupRatio => userGroupRatio
  | none => groups.getGroupRatio group

/-- The arguments of `RecalculateTaskQuota`, if it is called. -/
def recalculateTaskQuotaByTokens (task : StoredTask) (totalTokens : Int) :
    Option TokenRecalculation :=
  if totalTokens ≤ 0 then none
  else
    let (modelRatio, hasRatioSetting, _) := getModelRatio (taskModelName task)
    if hasRatioSetting = false ∨ modelRatio ≤ 0 then none
    else
      let group := completionGroup getUserById task
      if group = "" then none
      else
        some
          { totalTokens := totalTokens
            modelRatio := modelRatio
            groupRatio := finalGroupRatio groups group
            otherMultiplier := otherMultiplier order task }

end

section

variable {settings : Settings} {adaptor : TaskAdaptor}

private theorem groupRatio_attemptPrice (attempt : Attempt) (action : Action) (name : String)
    (base : PriceData) :
    (attemptPrice settings adaptor attempt action name base).groupRatio = base.groupRatio := by
  unfold attemptPrice
  dsimp only
  split
  · rw [foldl_addOtherRatio]
  · dsimp only
    rw [foldl_addOtherRatio]

private theorem groupRatio_finalPrice (attempt : Attempt) (price : PriceData) :
    (finalPrice attempt price).groupRatio = price.groupRatio := by
  unfold finalPrice
  split <;> rfl

variable {attempt : Attempt} {info info' : RelayInfo} {quota : Int} {later : List Attempt}

theorem groupRatio_relayTaskSubmit
    (h : relayTaskSubmit settings adaptor attempt info = (info', .ok quota)) :
    info'.priceData.groupRatio = settings.groupRatio := by
  unfold relayTaskSubmit at h
  split at h
  · cases h
  dsimp only at h
  split at h
  · cases h
  split at h
  · cases h
  next base hbase =>
  split at h
  · cases h
  split at h
  · cases h
  cases h
  dsimp only
  rw [groupRatio_finalPrice, groupRatio_attemptPrice]
  exact (modelPriceHelperPerCall_ok hbase).2

private theorem groupRatio_submitLoop
    (h : submitLoop settings adaptor info attempt later = (info', .ok quota)) :
    info'.priceData.groupRatio = settings.groupRatio := by
  induction later generalizing info attempt with
  | nil =>
    rcases submitLoop_cases h with hlast | ⟨next, rest, hlater, -⟩
    · exact groupRatio_relayTaskSubmit hlast
    · cases hlater
  | cons next later ih =>
    rcases submitLoop_cases h with hlast | ⟨_, _, hlater, hrest⟩
    · exact groupRatio_relayTaskSubmit hlast
    · cases hlater
      exact ih hrest

end

/-- The lookup of the pair of groups and that of the stored group with itself agree in every
configuration only if all are one group. -/
private theorem finalGroupRatio_everywhere_iff (autoGroup : Option String) (request : RequestGroups)
    (completion : String) :
    (∀ groups, finalGroupRatio groups completion =
        (handleGroupRatio groups autoGroup request).2.groupRatio) ↔
      request.userGroup = autoGroup.getD request.usingGroup ∧
        autoGroup.getD request.usingGroup = completion := by
  constructor
  · intro h
    have hsame : autoGroup.getD request.usingGroup = completion := by
      by_contra hne
      have hplain := h ⟨fun name => if name = completion then some 2 else none, fun _ => none⟩
      simp [finalGroupRatio, handleGroupRatio, getGroupGroupRatio, getGroupRatio, hne] at hplain
    refine ⟨?_, hsame⟩
    by_contra hne
    have hspecial := h ⟨fun _ => none, fun name =>
      if name = request.userGroup then some fun _ => some 2 else none⟩
    rw [← hsame] at hspecial
    simp [finalGroupRatio, handleGroupRatio, getGroupGroupRatio, getGroupRatio,
      Ne.symm hne] at hspecial
  · rintro ⟨huser, rfl⟩ groups
    simp only [finalGroupRatio, handleGroupRatio, huser]
    split <;> rfl

/-! A model with a ratio of 10. -/

def ratioTen : Settings where
  getModelPrice := fun _ => none
  defaultModelPrice := fun _ => none
  getModelRatio := fun name => (10, true, name)
  acceptUnsetRatioModel := false
  quotaPerUnit := 500000
  groupRatio := 1
  enableFreeModelPreConsume := true
  taskPricePatches := []

def tenSubmission (userId : Nat) (info : GroupRatioInfo) : Except TaskError Submitted :=
  relayTask (ratioTen.inGroup info) (fixedRatios noRatios) (fun _ => 0) (originDatabase noRatios)
    inOrder ⟨"/v1/videos", ""⟩ { remixInfo with userId, originModelName := "veo-3" } remixAttempt []

private theorem tenSubmission_ok (userId : Nat) (info : GroupRatioInfo) :
    ∃ submitted, tenSubmission userId info = .ok submitted := ⟨_, rfl⟩

section

variable {groups : GroupSettings} {autoGroup : Option String} {request : RequestGroups}

private theorem usingGroup_handleGroupRatio :
    (handleGroupRatio groups autoGroup request).1.usingGroup =
      autoGroup.getD request.usingGroup := by
  unfold handleGroupRatio
  dsimp only
  split <;> rfl

theorem groupRatio_relayTask {settings : Settings} {adaptor : TaskAdaptor} {atoi : String → Int}
    {db : Database} {order : MapOrder} {submit : SubmitRequest} {info : RelayInfo}
    {first : Attempt} {later : List Attempt} {submitted : Submitted}
    (h : relayTask settings adaptor atoi db order submit info first later = .ok submitted) :
    submitted.billingContext.groupRatio = settings.groupRatio := by
  unfold relayTask at h
  split at h
  · cases h
  split at h
  · cases h
  next hloop =>
  cases h
  exact groupRatio_submitLoop hloop

variable {getModelRatio : String → ℚ × Bool × String} {getUserById : Nat → Option String}
  {visit : MapOrder} {task : StoredTask} {totalTokens : Int} {recalculation : TokenRecalculation}

theorem groupRatio_recalculated
    (h : recalculateTaskQuotaByTokens groups getModelRatio getUserById visit task totalTokens =
      some recalculation) :
    completionGroup getUserById task ≠ "" ∧
      recalculation.groupRatio = finalGroupRatio groups (completionGroup getUserById task) := by
  unfold recalculateTaskQuotaByTokens at h
  split at h
  · cases h
  dsimp only at h
  split at h
  · cases h
  split at h
  · cases h
  · next hgroup =>
    cases h
    exact ⟨hgroup, rfl⟩

private theorem exists_recalculation (groups : GroupSettings)
    (h : completionGroup getUserById task ≠ "") :
    ∃ recalculation, recalculateTaskQuotaByTokens groups ratioTen.getModelRatio getUserById
      inOrder task 1 = some recalculation := by
  unfold recalculateTaskQuotaByTokens
  simp [ratioTen, h]

end

/--
Under every configuration the ratio at the end is that of the submission exactly if the user
uses the group that has the user's own name, or a task without a group has a user without one.
-/
theorem recalculated_groupRatio_iff (autoGroup : Option String) (request : RequestGroups)
    (userId : Nat) (getUserById : Nat → Option String) :
    (∀ (groups : GroupSettings) (settings : Settings) (adaptor : TaskAdaptor)
        (atoi : String → Int) (db : Database) (order visit : MapOrder) (submit : SubmitRequest)
        (info : RelayInfo) (first : Attempt) (later : List Attempt) (submitted : Submitted)
        (totalTokens : Int) (recalculation : TokenRecalculation), info.userId = userId →
      relayTask (settings.inGroup (handleGroupRatio groups autoGroup request).2) adaptor atoi db
        order submit info first later = .ok submitted →
      recalculateTaskQuotaByTokens groups settings.getModelRatio getUserById visit
        (initTask userId (handleGroupRatio groups autoGroup request).1 submitted) totalTokens =
          some recalculation →
      recalculation.groupRatio = submitted.billingContext.groupRatio) ↔
    if autoGroup.getD request.usingGroup = "" then (getUserById userId).getD "" = ""
    else request.userGroup = autoGroup.getD request.usingGroup := by
  have hcompletion : ∀ groups submitted, completionGroup getUserById
      (initTask userId (handleGroupRatio groups autoGroup request).1 submitted) =
      if autoGroup.getD request.usingGroup = "" then (getUserById userId).getD ""
      else autoGroup.getD request.usingGroup := by
    intro groups submitted
    rw [completionGroup, initTask]
    simp only [usingGroup_handleGroupRatio]
  have heverywhere := finalGroupRatio_everywhere_iff autoGroup request
  generalize autoGroup.getD request.usingGroup = usingGroup at *
  constructor
  · intro h
    by_contra hcondition
    have hgroup : (if usingGroup = "" then (getUserById userId).getD "" else usingGroup) ≠ "" := by
      grind
    have hall := (heverywhere
        (if usingGroup = "" then (getUserById userId).getD "" else usingGroup)).mp ?_
    · grind
    intro groups
    obtain ⟨submitted, hsubmitted⟩ :=
      tenSubmission_ok userId (handleGroupRatio groups autoGroup request).2
    rw [← hcompletion groups submitted] at hgroup ⊢
    obtain ⟨recalculation, hrecalculated⟩ := exists_recalculation groups hgroup
    rw [← (groupRatio_recalculated hrecalculated).2]
    exact (h groups ratioTen _ _ _ _ inOrder _ _ _ _ submitted 1 recalculation rfl hsubmitted
      hrecalculated).trans (groupRatio_relayTask hsubmitted)
  · rintro hcondition groups settings _ _ _ _ _ _ _ _ _ submitted _ recalculation - hsubmitted
      hrecalculated
    obtain ⟨hgroup, hratio⟩ := groupRatio_recalculated hrecalculated
    rw [hratio, groupRatio_relayTask hsubmitted]
    refine (heverywhere _).mpr ?_ groups
    rw [hcompletion] at hgroup ⊢
    grind

/-! A user of another group pays half in the default group. -/

def halfFor (group : String) : GroupSettings where
  groupRatioMap := fun name => if name = "default" then some 1 else none
  groupGroupRatioMap := fun name =>
    if name = group then some fun _ => some (1 / 2) else none

def halfSubmission (group : String) : Except TaskError Submitted :=
  tenSubmission 1 (handleGroupRatio (halfFor group) none ⟨group, "default"⟩).2

def halfRecalculation (group : String) (submitted : Submitted) (totalTokens : Int) :
    Option TokenRecalculation :=
  recalculateTaskQuotaByTokens (halfFor group) ratioTen.getModelRatio (fun _ => some group) inOrder
    (initTask 1 (handleGroupRatio (halfFor group) none ⟨group, "default"⟩).1 submitted)
    totalTokens

/-- A user of another group submits at half the price and is settled at the full price. -/
theorem recalculated_groupRatio_vip :
    (halfSubmission "vip").map (fun submitted => submitted.billingContext.groupRatio) =
      .ok (1 / 2) ∧
    (halfSubmission "vip").map (fun submitted =>
      (halfRecalculation "vip" submitted 100000).map fun r => (r.groupRatio, r.actualQuota)) =
      .ok (some (1, 1000000)) := by
  decide +kernel

end NewApi.Remix
