import NewApi.Foundation.Table

/-!
# The task table

Rows of the `tasks` table and the operations of `model/task.go` on it.  The
table is a partial map from primary keys to rows.  Every write takes a flag
saying whether the database accepted it; a refused write has no effect.
-/

namespace NewApi.Tasks

open Foundation

section

/--
`model.TaskStatus` is an open string type: upstream answers are stored as they
come.  The named constants are constructors, every other string is `other`.
-/
inductive TaskStatus where
  | notStart
  | submitted
  | queued
  | inProgress
  | failure
  | success
  | unknown
  | other (raw : String)
  deriving DecidableEq

namespace TaskStatus

def ofString : String → TaskStatus
  | "NOT_START" => .notStart
  | "SUBMITTED" => .submitted
  | "QUEUED" => .queued
  | "IN_PROGRESS" => .inProgress
  | "FAILURE" => .failure
  | "SUCCESS" => .success
  | "UNKNOWN" => .unknown
  | raw => .other raw

def toString : TaskStatus → String
  | .notStart => "NOT_START"
  | .submitted => "SUBMITTED"
  | .queued => "QUEUED"
  | .inProgress => "IN_PROGRESS"
  | .failure => "FAILURE"
  | .success => "SUCCESS"
  | .unknown => "UNKNOWN"
  | .other raw => raw

def isDone : TaskStatus → Bool
  | .failure | .success => true
  | _ => false

@[simp] theorem isDone_failure : isDone .failure = true := rfl

@[simp] theorem isDone_success : isDone .success = true := rfl

end TaskStatus

/-- `constant.TaskPlatform`: named platforms, and channel types as strings. -/
inductive TaskPlatform where
  | suno
  | midjourney
  | other (raw : String)
  deriving DecidableEq

structure TaskBillingContext where
  perCallBilling : Bool

structure TaskPrivateData where
  upstreamTaskID : String
  resultURL : String
  billingSource : String
  subscriptionId : Int
  tokenId : Int
  billingContext : Option TaskBillingContext

structure Task where
  id : Int
  taskID : String
  platform : TaskPlatform
  userId : Int
  channelId : Int
  quota : Int
  status : TaskStatus
  failReason : String
  submitTime : Int
  startTime : Int
  finishTime : Int
  progress : String
  privateData : TaskPrivateData
  data : String

/-- `GetUpstreamTaskID`: rows written before the field existed use `TaskID`. -/
def Task.getUpstreamTaskID (task : Task) : String :=
  if task.privateData.upstreamTaskID ≠ "" then task.privateData.upstreamTaskID
  else task.taskID

structure TaskSnapshot where
  status : TaskStatus
  progress : String
  startTime : Int
  finishTime : Int
  failReason : String
  resultURL : String
  data : String
  deriving DecidableEq

def Task.snapshot (task : Task) : TaskSnapshot where
  status := task.status
  progress := task.progress
  startTime := task.startTime
  finishTime := task.finishTime
  failReason := task.failReason
  resultURL := task.privateData.resultURL
  data := task.data

/-- A partial map from primary keys to rows, each row stored under its own key. -/
structure TaskTable where
  row : Int → Option Task
  keyed : ∀ {id : Int} {task : Task}, row id = some task → task.id = id

namespace TaskTable

def empty : TaskTable := ⟨fun _ => none, by simp⟩

def put (rows : TaskTable) (task : Task) : TaskTable where
  row := Function.update rows.row task.id (some task)
  keyed := by
    intro id stored h
    rcases update_some_eq_some_iff.mp h with ⟨rfl, rfl⟩ | ⟨-, hold⟩
    · rfl
    · exact rows.keyed hold

@[simp] theorem put_row_self (rows : TaskTable) (task : Task) :
    (rows.put task).row task.id = some task := by
  simp [put]

theorem put_row_ne (rows : TaskTable) (task : Task) {id : Int} (h : id ≠ task.id) :
    (rows.put task).row id = rows.row id := by
  simp [put, h]

theorem put_row_cases {rows : TaskTable} {task stored : Task} {id : Int}
    (h : (rows.put task).row id = some stored) :
    stored = task ∨ id ≠ task.id ∧ rows.row id = some stored := by
  rcases update_some_eq_some_iff.mp h with ⟨-, hstored⟩ | hold
  · exact .inl hstored
  · exact .inr hold

end TaskTable

def Task.unfinished (task : Task) : Bool := task.progress != "100%" && !task.status.isDone

def getAllUnFinishSyncTasks (task : Task) : Bool := task.unfinished

def getTimedOutUnfinishedTasks (cutoff : Int) (task : Task) : Bool :=
  task.unfinished && decide (task.submitTime < cutoff)

/--
`Task.UpdateWithStatus`: one conditional full-row `UPDATE`, guarded by the
primary key and by `fromStatus` only.  The second component says whether a row
was affected.
-/
def updateWithStatus (rows : TaskTable) (task : Task) (fromStatus : TaskStatus)
    (ok : Bool) : TaskTable × Bool :=
  match rows.row task.id with
  | none => (rows, false)
  | some row =>
    if ok = true ∧ row.status = fromStatus then (rows.put task, true)
    else (rows, false)

/-- `Task.Update`: an unconditional save of the whole row. -/
def update (rows : TaskTable) (task : Task) (ok : Bool) : TaskTable :=
  if ok then rows.put task else rows

def Task.bulkFailed (failReason : Option String) (task : Task) : Task :=
  { task with
    status := .failure
    progress := "100%"
    failReason := failReason.getD task.failReason }

/-- `TaskBulkUpdateByID` as its three callers use it: no guard on the status. -/
def taskBulkUpdateByID (rows : TaskTable) (ids : List Int)
    (failReason : Option String) (ok : Bool) : TaskTable where
  row id :=
    if ok = true ∧ id ∈ ids then (rows.row id).map (Task.bulkFailed failReason)
    else rows.row id
  keyed := by
    intro id stored h
    split at h
    · obtain ⟨row, hrow, rfl⟩ := Option.map_eq_some_iff.mp h
      change row.id = id
      exact rows.keyed hrow
    · exact rows.keyed h

variable {fromStatus : TaskStatus} {ok : Bool}

theorem updateWithStatus_won {rows : TaskTable} {task : Task}
    (h : (updateWithStatus rows task fromStatus ok).2 = true) :
    (∃ row, rows.row task.id = some row ∧ row.status = fromStatus) ∧
      (updateWithStatus rows task fromStatus ok).1 = rows.put task := by
  unfold updateWithStatus at h ⊢
  cases hrow : rows.row task.id with
  | none => simp [hrow] at h
  | some row =>
    simp only [hrow] at h ⊢
    split at h
    · rename_i hguard
      rw [if_pos hguard]
      exact ⟨⟨row, rfl, hguard.2⟩, rfl⟩
    · contradiction

theorem updateWithStatus_lost {rows : TaskTable} {task : Task}
    (h : (updateWithStatus rows task fromStatus ok).2 = false) :
    (updateWithStatus rows task fromStatus ok).1 = rows := by
  unfold updateWithStatus at h ⊢
  cases hrow : rows.row task.id with
  | none => rfl
  | some =>
    simp only [hrow] at h ⊢
    split at h
    · contradiction
    · rename_i hguard
      rw [if_neg hguard]

theorem taskBulkUpdateByID_row {rows : TaskTable} {ids : List Int} {failReason : Option String}
    {id : Int} {stored : Task}
    (h : (taskBulkUpdateByID rows ids failReason ok).row id = some stored) :
    rows.row id = some stored ∨
      ∃ row, ok = true ∧ id ∈ ids ∧ rows.row id = some row ∧
        stored = row.bulkFailed failReason := by
  simp only [taskBulkUpdateByID] at h
  split at h
  · rename_i hmem
    obtain ⟨row, hrow, rfl⟩ := Option.map_eq_some_iff.mp h
    exact .inr ⟨row, hmem.1, hmem.2, hrow, rfl⟩
  · exact .inl h

def TaskTable.KeepsDone (rows rows' : TaskTable) : Prop :=
  ∀ id row, rows.row id = some row → row.status.isDone = true →
    ∃ row', rows'.row id = some row' ∧ row'.status = row.status

namespace TaskTable

variable (rows : TaskTable)

theorem KeepsDone.refl : rows.KeepsDone rows := fun _ row hrow _ => ⟨row, hrow, rfl⟩

theorem KeepsDone.trans {first second third : TaskTable} (h : first.KeepsDone second)
    (h' : second.KeepsDone third) : first.KeepsDone third := by
  intro id row hrow hdone
  obtain ⟨row', hrow', hstatus⟩ := h id row hrow hdone
  obtain ⟨row'', hrow'', hstatus'⟩ := h' id row' hrow' (by rw [hstatus, hdone])
  exact ⟨row'', hrow'', hstatus'.trans hstatus⟩

theorem keepsDone_put_iff (task : Task) :
    rows.KeepsDone (rows.put task) ↔
      ∀ row, rows.row task.id = some row → row.status.isDone = true → task.status = row.status := by
  constructor
  · intro h row hrow hdone
    obtain ⟨row', hrow', hstatus⟩ := h task.id row hrow hdone
    rw [put_row_self, Option.some.injEq] at hrow'
    rw [hrow', hstatus]
  · intro h id row hrow hdone
    by_cases hid : id = task.id
    · subst hid
      exact ⟨task, put_row_self rows task, h row hrow hdone⟩
    · exact ⟨row, by rw [put_row_ne _ _ hid, hrow], rfl⟩

theorem keepsDone_bulk_iff (ids : List Int) (failReason : Option String) (ok : Bool) :
    rows.KeepsDone (taskBulkUpdateByID rows ids failReason ok) ↔
      (ok = true → ∀ id ∈ ids, ∀ row, rows.row id = some row →
        row.status.isDone = true → row.status = .failure) := by
  constructor
  · intro h hok id hmem row hrow hdone
    obtain ⟨row', hrow', hstatus⟩ := h id row hrow hdone
    simp only [taskBulkUpdateByID, hok, hmem, and_self, reduceIte, hrow, Option.map_some,
      Option.some.injEq] at hrow'
    rw [← hstatus, ← hrow']
    rfl
  · intro h id row hrow hdone
    by_cases hhit : ok = true ∧ id ∈ ids
    · refine ⟨row.bulkFailed failReason, ?_, (h hhit.1 id hhit.2 row hrow hdone).symm⟩
      simp [taskBulkUpdateByID, hhit, hrow]
    · refine ⟨row, ?_, rfl⟩
      simp [taskBulkUpdateByID, if_neg hhit, hrow]

end TaskTable

end

/-!
## Task billing

The quota side of `service/task_billing.go`.  A billing function is modelled
by the list of quota operations it issues; a positive amount is taken from the
account, a negative one is given back.
-/

inductive QuotaOp where
  | user (userId : Int) (delta : Int)
  | subscription (subscriptionId : Int) (delta : Int)
  | token (tokenId : Int) (delta : Int)
  deriving DecidableEq

/--
Answers of the quota layer to one billing call.  `fundingOk` is the result of
the funding adjustment; `tokenOk` says that the token key was resolved and the
token adjustment succeeded.
-/
structure QuotaAnswers where
  fundingOk : Bool
  tokenOk : Bool

def taskIsSubscription (task : Task) : Bool :=
  task.privateData.billingSource == "subscription" &&
    decide (0 < task.privateData.subscriptionId)

def taskAdjustFunding (task : Task) (delta : Int) : QuotaOp :=
  if taskIsSubscription task then
    .subscription task.privateData.subscriptionId delta
  else .user task.userId delta

section

variable (answers : QuotaAnswers) (task : Task)

def taskAdjustTokenQuota (delta : Int) : List QuotaOp :=
  if task.privateData.tokenId ≤ 0 ∨ delta = 0 then []
  else if answers.tokenOk then [.token task.privateData.tokenId delta]
  else []

def refundTaskQuota : List QuotaOp :=
  if task.quota = 0 then []
  else if answers.fundingOk then
    taskAdjustFunding task (-task.quota) :: taskAdjustTokenQuota answers task (-task.quota)
  else []

def recalculateTaskQuota (actualQuota : Int) : Task × List QuotaOp :=
  if actualQuota ≤ 0 then (task, [])
  else
    let quotaDelta := actualQuota - task.quota
    if quotaDelta = 0 then (task, [])
    else if answers.fundingOk then
      ({ task with quota := actualQuota },
        taskAdjustFunding task quotaDelta :: taskAdjustTokenQuota answers task quotaDelta)
    else (task, [])

/--
Inputs of one settlement: the adaptor's `AdjustBillingOnComplete` and the
quota that `RecalculateTaskQuotaByTokens` derives from the configured ratios,
`none` where it returns without settling.
-/
structure SettleInputs where
  adjusted : Int
  byTokens : Option Int

def settleTaskBillingOnComplete (inputs : SettleInputs) (task : Task) (totalTokens : Int) :
    Task × List QuotaOp :=
  if (task.privateData.billingContext.map (·.perCallBilling)).getD false then
    (task, [])
  else if 0 < inputs.adjusted then
    recalculateTaskQuota answers task inputs.adjusted
  else if 0 < totalTokens then
    match inputs.byTokens with
    | some actualQuota => recalculateTaskQuota answers task actualQuota
    | none => (task, [])
  else (task, [])

inductive BillingAct where
  | settle (totalTokens : Int)
  | refund
  deriving DecidableEq

def performBilling (inputs : SettleInputs) (task : Task) : BillingAct → Task × List QuotaOp
  | .settle totalTokens =>
    settleTaskBillingOnComplete answers inputs task totalTokens
  | .refund => (task, refundTaskQuota answers task)

def refundOp : QuotaOp := taskAdjustFunding task (-task.quota)

theorem refundOp_mem_refundTaskQuota {answers : QuotaAnswers} {task : Task}
    (hquota : task.quota ≠ 0) (hok : answers.fundingOk = true) :
    refundOp task ∈ refundTaskQuota answers task := by
  simp [refundTaskQuota, refundOp, hquota, hok]

theorem recalculateTaskQuota_id (actualQuota : Int) :
    (recalculateTaskQuota answers task actualQuota).1.id = task.id ∧
      (recalculateTaskQuota answers task actualQuota).1.status = task.status := by
  unfold recalculateTaskQuota
  split
  · exact ⟨rfl, rfl⟩
  simp only
  split
  · exact ⟨rfl, rfl⟩
  · split <;> exact ⟨rfl, rfl⟩

theorem performBilling_id (inputs : SettleInputs) (task : Task) (act : BillingAct) :
    (performBilling answers inputs task act).1.id = task.id ∧
      (performBilling answers inputs task act).1.status = task.status := by
  cases act with
  | refund => exact ⟨rfl, rfl⟩
  | settle =>
    simp only [performBilling, settleTaskBillingOnComplete]
    split
    · exact ⟨rfl, rfl⟩
    split
    · exact recalculateTaskQuota_id ..
    split
    · cases inputs.byTokens with
      | none => exact ⟨rfl, rfl⟩
      | some => exact recalculateTaskQuota_id ..
    · exact ⟨rfl, rfl⟩

end

end NewApi.Tasks
