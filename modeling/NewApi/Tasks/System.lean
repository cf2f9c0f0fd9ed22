import Mathlib.Data.String.Basic
import NewApi.Foundation.Run
import NewApi.Tasks.Model

/-!
# One visit of a task

The functions of `service/task_polling.go` and `relay/relay_task.go` that
decide what a poller, the timeout sweeper or a user query writes to a task.
Each is a function of the in-memory task and of the upstream answer; the
database steps they enable are taken by the state machine.
-/

namespace NewApi.Tasks

structure Env where
  serverAddress : String
  marshal : String → String

def Env.buildProxyURL (env : Env) (taskID : String) : String :=
  env.serverAddress ++ "/v1/videos/" ++ taskID ++ "/content"

structure TaskInfo where
  status : String
  reason : String
  url : String
  progress : String
  totalTokens : Int

def failTaskInfo (reason : String) : TaskInfo :=
  { status := "FAILURE", reason := reason, url := "", progress := "", totalTokens := 0 }

/--
What the response body of one video poll parses to: as a New API envelope, by
the adaptor, and as an error body (`none` if it does not unmarshal, otherwise
the code of the OpenAI error it carries, if any).
-/
structure PollResponse where
  newApi : Option TaskInfo
  parsed : Option TaskInfo
  errorBody : Option (Option String)
  redacted : String

/-- `none` where `updateVideoSingleTask` returns before it sets a status. -/
def PollResponse.taskResult (response : PollResponse) : Option TaskInfo :=
  match response.newApi.or response.parsed with
  | none => none
  | some result =>
    if result.status = "" then
      match response.errorBody with
      | none => some result
      | some none => some (failTaskInfo "upstream returned unrecognized message")
      | some (some code) =>
        if code = "429" then none
        else some (failTaskInfo "upstream returned error")
    else some result

/--
The visit as far as its conditional update: the in-memory task, the status the
update is guarded by, whether billing depends on winning it, and the billing
action.
-/
structure Visit where
  task : Task
  casFrom : Option TaskStatus
  guarded : Bool
  act : Option BillingAct

def Visit.none (task : Task) : Visit :=
  { task := task, casFrom := Option.none, guarded := false, act := Option.none }

section

variable (task : Task)

def Task.orProgress (progress : String) : Task :=
  if progress ≠ "" then { task with progress := progress } else task

def Task.started (now : Int) : Task :=
  if task.startTime = 0 then { task with startTime := now } else task

def Task.finished (now : Int) : Task :=
  if task.finishTime = 0 then { task with finishTime := now } else task

def Task.withResultURL (url : String) : Task :=
  { task with privateData := { task.privateData with resultURL := url } }

section

variable (env : Env)

/--
The `switch` on the polled status: the task it leaves in memory and the
billing flag it raises, or `none` for a status outside the five known ones.
-/
def applyTaskResult (now : Int) (task : Task) (result : TaskInfo) :
    Option (Task × Option BillingAct) :=
  match TaskStatus.ofString result.status with
  | .submitted =>
    some ({ task with status := .submitted, progress := "10%" }.orProgress result.progress, none)
  | .queued =>
    some ({ task with status := .queued, progress := "20%" }.orProgress result.progress, none)
  | .inProgress =>
    some (({ task with status := .inProgress, progress := "30%" }.started now).orProgress
      result.progress, none)
  | .success =>
    let done := { task with status := .success, progress := "100%" }.finished now
    let url :=
      if result.url.startsWith "data:" then env.buildProxyURL task.taskID
      else if result.url ≠ "" then result.url
      else env.buildProxyURL task.taskID
    some ((done.withResultURL url).orProgress result.progress, some (.settle result.totalTokens))
  | .failure =>
    let done := { task with status := .failure, progress := "100%" }.finished now
    -- taskResult.Progress is overwritten with 100% in this case
    some ({ done with failReason := result.reason },
      if task.quota ≠ 0 then some .refund else none)
  | _ => none

def updateVideoSingleTask (now : Int) (task : Task) (response : PollResponse) : Visit :=
  let read := { task with data := response.redacted }
  match response.taskResult with
  | none => Visit.none read
  | some result =>
    match applyTaskResult env now read result with
    | none => Visit.none { read with status := TaskStatus.ofString result.status }
    | some (visited, act) =>
      if visited.status.isDone = true ∧ task.status ≠ visited.status then
        { task := visited, casFrom := some task.status, guarded := true, act := act }
      else if task.snapshot ≠ visited.snapshot then
        { task := visited, casFrom := some task.status, guarded := false, act := act }
      else
        { task := visited, casFrom := none, guarded := false, act := act }

def legacyTaskCutoff : Int := 1740182400

def Task.isLegacy : Bool :=
  decide (0 < task.submitTime) && decide (task.submitTime < legacyTaskCutoff)

def legacyReason : String := "任务超时（旧系统遗留任务，不进行退款，请联系管理员）"

def sweepTimedOutTask (now : Int) (reason : String) (task : Task) : Visit :=
  { task :=
      { task with
        status := .failure
        progress := "100%"
        finishTime := now
        failReason := if task.isLegacy then legacyReason else reason }
    casFrom := some task.status
    guarded := true
    act := if !task.isLegacy && task.quota != 0 then some .refund else none }

def channelTypeGemini : Int := 24

def channelTypeVertexAi : Int := 41

/-- Fetching and parsing is `none` for every early return of the function. -/
def tryRealtimeFetch (task : Task) (channelType : Int) (fetched : Option TaskInfo) : Visit :=
  if channelType ≠ channelTypeVertexAi ∧ channelType ≠ channelTypeGemini then
    Visit.none task
  else
    match fetched with
    | none => Visit.none task
    | some info =>
      let polled :=
        if info.status ≠ "" then { task with status := TaskStatus.ofString info.status }
        else task
      let polled := polled.orProgress info.progress
      let polled :=
        if info.url.startsWith "data:" then polled
        else if info.url ≠ "" then polled.withResultURL info.url
        else if polled.status = .success then
          polled.withResultURL (env.buildProxyURL polled.taskID)
        else polled
      if task.snapshot ≠ polled.snapshot then
        { task := polled, casFrom := some task.status, guarded := false, act := none }
      else { task := polled, casFrom := none, guarded := false, act := none }

structure SunoDataResponse where
  taskID : String
  status : String
  failReason : String
  submitTime : Int
  startTime : Int
  finishTime : Int
  data : String

def sortedData (data : String) : List UInt8 :=
  (env.marshal data).toUTF8.data.toList.insertionSort (· ≤ ·)

def taskNeedsUpdate (oldTask : Task) (newTask : SunoDataResponse) : Bool :=
  decide (oldTask.submitTime ≠ newTask.submitTime) ||
  decide (oldTask.startTime ≠ newTask.startTime) ||
  decide (oldTask.finishTime ≠ newTask.finishTime) ||
  decide (oldTask.status.toString ≠ newTask.status) ||
  decide (oldTask.failReason ≠ newTask.failReason) ||
  (oldTask.status.isDone && oldTask.progress != "100%") ||
  decide (sortedData env oldTask.data ≠ sortedData env newTask.data)

end

section

variable (item : SunoDataResponse)

def Task.withItem : Task :=
  { task with
    status := if item.status ≠ "" then TaskStatus.ofString item.status else task.status
    failReason := if item.failReason ≠ "" then item.failReason else task.failReason
    submitTime := if item.submitTime ≠ 0 then item.submitTime else task.submitTime
    startTime := if item.startTime ≠ 0 then item.startTime else task.startTime
    finishTime := if item.finishTime ≠ 0 then item.finishTime else task.finishTime }

def sunoRefunds : Bool := item.failReason != "" || decide ((task.withItem item).status = .failure)

def sunoUpdated : Task :=
  let copied := task.withItem item
  let copied := if sunoRefunds task item then { copied with progress := "100%" } else copied
  let copied := if item.status = "SUCCESS" then { copied with progress := "100%" } else copied
  { copied with data := item.data }

end

end

/-!
## The task subsystem as a state machine

Pollers, sweepers and user queries on any number of nodes work on in-memory
copies of rows.  An object is one `*model.Task` in the memory of one process.
The events below are the atomic database steps and the quota calls of these
processes, so that a list of events is an interleaving of all of them; an
event that its object is not ready for changes nothing.
-/

inductive Role where
  | poller
  | sweeper
  | query
  deriving DecidableEq

structure TaskObject where
  role : Role
  task : Task
  visits : Nat
  -- billing action enabled by the last visit and not yet executed
  pending : Option BillingAct
  -- a Suno visit whose `Task.Update` is still to come
  dirty : Bool

structure BillingEntry where
  object : Nat
  task : Task
  act : BillingAct
  ops : List QuotaOp

structure System where
  rows : TaskTable
  objects : Nat → Option TaskObject
  log : List BillingEntry

def System.init (rows : TaskTable) : System :=
  { rows := rows, objects := fun _ => none, log := [] }

inductive BulkFailure where
  | nullTaskIds
  | sunoChannel (channelId : Int)
  | videoChannel (channelId : Int)

def BulkFailure.failReason : BulkFailure → Option String
  | .nullTaskIds => none
  | .sunoChannel channelId =>
    some ("获取渠道信息失败，请联系管理员，渠道ID：" ++ toString channelId)
  | .videoChannel channelId =>
    some ("Failed to get channel info, channel ID: " ++ toString channelId)

/-- The loaded tasks a caller collects; a shared upstream id may mix channels. -/
def BulkFailure.selects (task : Task) : BulkFailure → Bool
  | .nullTaskIds => decide (task.getUpstreamTaskID = "")
  | .sunoChannel _ => decide (task.getUpstreamTaskID ≠ "") && decide (task.platform = .suno)
  | .videoChannel _ =>
    decide (task.getUpstreamTaskID ≠ "") && decide (task.platform ≠ .suno) &&
      decide (task.platform ≠ .midjourney)

inductive Event where
  | insert (task : Task)
  | loadUnfinished (object : Nat) (id : Int)
  | loadTimedOut (object : Nat) (id : Int) (cutoff : Int)
  | loadByTaskId (object : Nat) (id : Int)
  | poll (object : Nat) (now : Int) (response : PollResponse) (ok : Bool)
  | sweep (object : Nat) (now : Int) (reason : String) (ok : Bool)
  | realtime (object : Nat) (channelType : Int) (fetched : Option TaskInfo) (ok : Bool)
  | bill (object : Nat) (answers : QuotaAnswers) (inputs : SettleInputs)
  | sunoVisit (object : Nat) (item : SunoDataResponse) (answers : QuotaAnswers)
  | sunoSave (object : Nat) (ok : Bool)
  | bulkFail (objects : List Nat) (cause : BulkFailure) (ok : Bool)

def Event.object : Event → Option Nat
  | .poll j .. | .sweep j .. | .realtime j .. | .bill j .. => some j
  | .sunoVisit j .. | .sunoSave j .. => some j
  | _ => none

namespace System

section

variable (s : System) (j : Nat) (o : TaskObject)

def setObject : System :=
  { s with objects := Function.update s.objects j (some o) }

def load (id : Int) (role : Role) (selects : Task → Bool) : System :=
  match s.objects j, s.rows.row id with
  | none, some row =>
    if selects row then
      s.setObject j { role := role, task := row, visits := 0, pending := none, dirty := false }
    else s
  | _, _ => s

def cas (v : Visit) (ok : Bool) : TaskTable × Bool :=
  match v.casFrom with
  | none => (s.rows, false)
  | some fromStatus => updateWithStatus s.rows v.task fromStatus ok

/-- Billing is dropped when it depends on a conditional update that was lost. -/
def visit (v : Visit) (ok : Bool) : System :=
  { s with
    rows := (s.cas v ok).1
    objects := Function.update s.objects j (some
      { o with
        task := v.task
        visits := o.visits + 1
        pending := if v.guarded = true ∧ (s.cas v ok).2 = false then none else v.act }) }

def bill (act : BillingAct) (answers : QuotaAnswers) (inputs : SettleInputs) : System :=
  { s with
    objects := Function.update s.objects j (some
      { o with
        task := (performBilling answers inputs o.task act).1
        pending := none })
    log :=
      { object := j, task := o.task, act := act,
        ops := (performBilling answers inputs o.task act).2 } :: s.log }

def sunoEntry (item : SunoDataResponse) (answers : QuotaAnswers) : BillingEntry :=
  let refunded := { o.task.withItem item with progress := "100%" }
  { object := j, task := refunded, act := .refund, ops := refundTaskQuota answers refunded }

def sunoVisit (item : SunoDataResponse) (answers : QuotaAnswers) : System :=
  { s with
    objects := Function.update s.objects j (some
      { o with
        task := sunoUpdated o.task item
        visits := o.visits + 1
        dirty := true })
    log :=
      if sunoRefunds o.task item then sunoEntry j o item answers :: s.log else s.log }

def sunoSave (ok : Bool) : System :=
  { s with
    rows := update s.rows o.task ok
    objects := Function.update s.objects j (some { o with dirty := false }) }

def bulkIds (objects : List Nat) (cause : BulkFailure) : List Int :=
  objects.filterMap fun j =>
    match s.objects j with
    | some o =>
      if o.role = .poller ∧ cause.selects o.task = true then some o.task.id else none
    | none => none

end

end System

def initTask (task : Task) : Task :=
  { task with
    status := .notStart
    progress := "0%"
    failReason := ""
    startTime := 0
    finishTime := 0 }

-- the previous visit has been billed and saved
section

variable (o : TaskObject)

def TaskObject.ready : Bool := o.pending.isNone && !o.dirty

def TaskObject.canPoll : Bool :=
  o.ready && decide (o.role = .poller) && decide (o.task.platform ≠ .suno) &&
    decide (o.task.platform ≠ .midjourney)

def TaskObject.canSweep : Bool := o.ready && decide (o.role = .sweeper) && decide (o.visits = 0)

def TaskObject.canFetch : Bool := o.ready && decide (o.role = .query) && decide (o.visits = 0)

def TaskObject.canSuno : Bool :=
  o.ready && decide (o.role = .poller) && decide (o.task.platform = .suno)

end

def step (env : Env) (s : System) : Event → System
  | .insert task =>
    match s.rows.row task.id with
    | none => { s with rows := s.rows.put (initTask task) }
    | some _ => s
  | .loadUnfinished j id => s.load j id .poller getAllUnFinishSyncTasks
  | .loadTimedOut j id cutoff => s.load j id .sweeper (getTimedOutUnfinishedTasks cutoff)
  | .loadByTaskId j id => s.load j id .query fun _ => true
  | .poll j now response ok =>
    match s.objects j with
    | some o =>
      if o.canPoll then s.visit j o (updateVideoSingleTask env now o.task response) ok
      else s
    | none => s
  | .sweep j now reason ok =>
    match s.objects j with
    | some o =>
      if o.canSweep then s.visit j o (sweepTimedOutTask now reason o.task) ok else s
    | none => s
  | .realtime j channelType fetched ok =>
    match s.objects j with
    | some o =>
      if o.canFetch then s.visit j o (tryRealtimeFetch env o.task channelType fetched) ok
      else s
    | none => s
  | .bill j answers inputs =>
    match s.objects j with
    | some o =>
      match o.pending with
      | some act => s.bill j o act answers inputs
      | none => s
    | none => s
  | .sunoVisit j item answers =>
    match s.objects j with
    | some o =>
      if o.canSuno && taskNeedsUpdate env o.task item then s.sunoVisit j o item answers
      else s
    | none => s
  | .sunoSave j ok =>
    match s.objects j with
    | some o => if o.dirty then s.sunoSave j o ok else s
    | none => s
  | .bulkFail objects cause ok =>
    { s with
      rows := taskBulkUpdateByID s.rows (s.bulkIds objects cause) cause.failReason ok }

def plainEnv : Env := { serverAddress := "", marshal := id }

def plainTask (platform : TaskPlatform) (quota : Int) : Task :=
  { id := 1, taskID := "task_1", platform := platform, userId := 7, channelId := 3
    quota := quota, status := .notStart, failReason := ""
    submitTime := 1800000000, startTime := 0, finishTime := 0, progress := "0%"
    privateData :=
      { upstreamTaskID := "up_1", resultURL := "", billingSource := "wallet"
        subscriptionId := 0, tokenId := 0, billingContext := none }
    data := "" }

def plainInfo (status : String) : TaskInfo :=
  { status := status, reason := "", url := "", progress := "", totalTokens := 0 }

def plainResponse (status : String) : PollResponse :=
  { newApi := none, parsed := some (plainInfo status), errorBody := none, redacted := "" }

def plainItem (status failReason : String) : SunoDataResponse :=
  { taskID := "up_1", status := status, failReason := failReason
    submitTime := 0, startTime := 0, finishTime := 0, data := "" }

def allOk : QuotaAnswers := { fundingOk := true, tokenOk := true }

def noSettlement : SettleInputs := { adjusted := 0, byTokens := none }

end NewApi.Tasks
