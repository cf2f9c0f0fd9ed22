import NewApi.Tasks.System

/-!
# What a visit and a step can do

One specification per visiting function and one inversion of `step`.  Every
invariant of the task subsystem is proved from these and never unfolds the
functions again.
-/

namespace NewApi.Tasks

open Foundation

section

structure SameTask (a b : Task) : Prop where
  id : a.id = b.id
  quota : a.quota = b.quota
  refund : refundOp a = refundOp b
  platform : a.platform = b.platform

variable (task : Task)

theorem SameTask.refl : SameTask task task := ⟨rfl, rfl, rfl, rfl⟩

variable {a b visited : Task} {item : SunoDataResponse}

theorem SameTask.symm (h : SameTask a b) : SameTask b a :=
  ⟨h.id.symm, h.quota.symm, h.refund.symm, h.platform.symm⟩

theorem SameTask.trans {c : Task} (hab : SameTask a b) (hbc : SameTask b c) : SameTask a c :=
  ⟨hab.id.trans hbc.id, hab.quota.trans hbc.quota, hab.refund.trans hbc.refund,
    hab.platform.trans hbc.platform⟩

/-- `a` is `b` later on: its progress, its times and its result may differ. -/
structure Advanced (a b : Task) : Prop extends SameTask a b where
  status : a.status = b.status

theorem Advanced.trans {c : Task} (hab : Advanced a b) (hbc : Advanced b c) : Advanced a c :=
  ⟨hab.toSameTask.trans hbc.toSameTask, hab.status.trans hbc.status⟩

theorem advanced_orProgress (progress : String) : Advanced (task.orProgress progress) task := by
  unfold Task.orProgress
  split <;> exact ⟨⟨rfl, rfl, rfl, rfl⟩, rfl⟩

variable (now : Int)

theorem advanced_started : Advanced (task.started now) task := by
  unfold Task.started
  split <;> exact ⟨⟨rfl, rfl, rfl, rfl⟩, rfl⟩

theorem advanced_finished : Advanced (task.finished now) task := by
  unfold Task.finished
  split <;> exact ⟨⟨rfl, rfl, rfl, rfl⟩, rfl⟩

theorem advanced_withResultURL (url : String) : Advanced (task.withResultURL url) task :=
  ⟨⟨rfl, rfl, rfl, rfl⟩, rfl⟩

/-- A conditional update is guarded by the status the task was loaded with. -/
structure VisitFrame (task : Task) (v : Visit) : Prop where
  same : SameTask v.task task
  casFrom : ∀ status, v.casFrom = some status → status = task.status

/-- Billing needs a terminal status, and a won update unless it was terminal before. -/
structure VisitSpec (task : Task) (v : Visit) : Prop extends VisitFrame task v where
  guarded : v.guarded = true →
    v.casFrom = some task.status ∧ v.task.status.isDone = true ∧ task.status ≠ v.task.status
  act : ∀ act, v.act = some act →
    v.task.status.isDone = true ∧ (task.status.isDone = false → v.guarded = true)

theorem VisitSpec.idle {task : Task} (h : SameTask visited task) :
    VisitSpec task (Visit.none visited) where
  same := h
  casFrom := by simp [Visit.none]
  guarded := by simp [Visit.none]
  act := by simp [Visit.none]

theorem Advanced.spec {base task : Task} {act : Option BillingAct} (h : Advanced visited base)
    (hbase : SameTask base task) (hdone : act.isSome = true → base.status.isDone = true)
    (hother : base.status ≠ .failure) :
    SameTask visited task ∧
      (act.isSome = true → visited.status.isDone = true) ∧
      (visited.status = .failure → task.quota ≠ 0 → act = some .refund) := by
  rw [h.status]
  exact ⟨h.toSameTask.trans hbase, hdone, fun hfailure => absurd hfailure hother⟩

private theorem applyTaskResult_spec {env : Env} {now : Int} {task : Task} {result : TaskInfo}
    {act : Option BillingAct} (h : applyTaskResult env now task result = some (visited, act)) :
    SameTask visited task ∧
      (act.isSome = true → visited.status.isDone = true) ∧
      (visited.status = .failure → task.quota ≠ 0 → act = some .refund) := by
  unfold applyTaskResult at h
  cases hstatus : TaskStatus.ofString result.status <;>
    simp only [hstatus, Option.some.injEq, Prod.mk.injEq, reduceCtorEq] at h
  case submitted | queued =>
    obtain ⟨rfl, rfl⟩ := h
    exact (advanced_orProgress _ _).spec ⟨rfl, rfl, rfl, rfl⟩ (by simp) (by simp)
  case inProgress =>
    obtain ⟨rfl, rfl⟩ := h
    exact ((advanced_orProgress _ _).trans (advanced_started _ _)).spec ⟨rfl, rfl, rfl, rfl⟩
      (by simp) (by simp)
  case success =>
    obtain ⟨rfl, rfl⟩ := h
    exact (((advanced_orProgress _ _).trans (advanced_withResultURL _ _)).trans
      (advanced_finished _ now)).spec ⟨rfl, rfl, rfl, rfl⟩ (by simp) (by simp)
  case failure =>
    obtain ⟨rfl, rfl⟩ := h
    have hfinished := advanced_finished { task with status := .failure, progress := "100%" } now
    refine ⟨{ hfinished with }, ?_, ?_⟩
    · simp [hfinished.status]
    · intro _ hquota
      exact if_pos hquota

theorem updateVideoSingleTask_spec (env : Env) (now : Int) (task : Task) (response : PollResponse) :
    VisitSpec task (updateVideoSingleTask env now task response) ∧
      ((updateVideoSingleTask env now task response).casFrom.isSome = true →
        (updateVideoSingleTask env now task response).task.status = .failure →
        task.quota ≠ 0 →
        (updateVideoSingleTask env now task response).act = some .refund) := by
  unfold updateVideoSingleTask
  simp only
  cases hresult : response.taskResult with
  | none => exact ⟨.idle ⟨rfl, rfl, rfl, rfl⟩, by simp [Visit.none]⟩
  | some result =>
    simp only
    cases happly : applyTaskResult env now { task with data := response.redacted } result with
    | none => exact ⟨.idle ⟨rfl, rfl, rfl, rfl⟩, by simp [Visit.none]⟩
    | some visited =>
      obtain ⟨visited, act⟩ := visited
      obtain ⟨hsame, hact, hrefund⟩ := applyTaskResult_spec happly
      have hsame' : SameTask visited task := hsame.trans ⟨rfl, rfl, rfl, rfl⟩
      simp only
      split
      · rename_i hdone
        refine ⟨⟨⟨hsame', by simp⟩, fun _ => ⟨rfl, hdone⟩, fun a ha => ⟨hdone.1, fun _ => rfl⟩⟩,
          fun _ hfail hquota => hrefund hfail hquota⟩
      rename_i hdone
      -- a billing action needs a done status, which the failed test
      -- equates with the loaded one
      have hbill : ∀ a, act = some a →
          visited.status.isDone = true ∧ (task.status.isDone = false → False) := by
        intro a ha
        have hvisited := hact (by simp [ha])
        refine ⟨hvisited, fun hopen => hdone ⟨hvisited, ?_⟩⟩
        intro heq
        rw [heq, hvisited] at hopen
        contradiction
      split
      all_goals refine ⟨⟨⟨hsame', by simp⟩, by simp,
        fun a ha => ⟨(hbill a ha).1, fun hopen => ((hbill a ha).2 hopen).elim⟩⟩, ?_⟩
      · exact fun _ hfail hquota => hrefund hfail hquota
      · simp

theorem sweepTimedOutTask_frame (reason : String) (task : Task) :
    VisitFrame task (sweepTimedOutTask now reason task) := by
  refine ⟨⟨rfl, rfl, rfl, rfl⟩, ?_⟩
  intro status h
  exact (Option.some.inj h).symm

theorem sweepTimedOutTask_spec (reason : String) (task : Task) :
    VisitSpec task (sweepTimedOutTask now reason task) ∨ task.status.isDone = true := by
  cases hopen : task.status.isDone with
  | true => exact .inr rfl
  | false =>
    refine .inl ⟨sweepTimedOutTask_frame now reason task, ?_, ?_⟩
    · intro _
      refine ⟨rfl, rfl, ?_⟩
      rintro heq
      rw [heq] at hopen
      contradiction
    · exact fun _ _ => ⟨rfl, fun _ => rfl⟩

theorem tryRealtimeFetch_spec (env : Env) (task : Task) (channelType : Int)
    (fetched : Option TaskInfo) :
    VisitSpec task (tryRealtimeFetch env task channelType fetched) ∧
      (tryRealtimeFetch env task channelType fetched).act = none := by
  unfold tryRealtimeFetch
  split
  · exact ⟨.idle (.refl task), rfl⟩
  cases fetched with
  | none => exact ⟨.idle (.refl task), rfl⟩
  | some info =>
    simp only
    generalize hpolled : (if info.status ≠ "" then
      { task with status := TaskStatus.ofString info.status } else task) = polled
    have hfirst : SameTask polled task := by
      subst hpolled
      split <;> exact ⟨rfl, rfl, rfl, rfl⟩
    have hprogress := (advanced_orProgress polled info.progress).toSameTask.trans hfirst
    generalize polled.orProgress info.progress = polled' at hprogress ⊢
    generalize hfinal : (if info.url.startsWith "data:" = true then polled'
      else if info.url ≠ "" then polled'.withResultURL info.url
      else if polled'.status = .success then
        polled'.withResultURL (env.buildProxyURL polled'.taskID)
      else polled') = final
    have hurl : SameTask final task := by
      subst hfinal
      repeat' split
      all_goals first
        | exact hprogress
        | exact (advanced_withResultURL _ _).toSameTask.trans hprogress
    split <;> exact ⟨⟨⟨hurl, by simp⟩, by simp, by simp⟩, rfl⟩

theorem sunoUpdated_spec (item : SunoDataResponse) :
    SameTask (sunoUpdated task item) task ∧
      (sunoUpdated task item).status = (task.withItem item).status ∧
      (sunoRefunds task item = true → (sunoUpdated task item).progress = "100%") := by
  unfold sunoUpdated
  simp only
  cases hrefunds : sunoRefunds task item <;>
    by_cases hsuccess : item.status = "SUCCESS" <;>
    simp only [hsuccess, reduceIte, Bool.false_eq_true] <;>
    exact ⟨⟨rfl, rfl, rfl, rfl⟩, by simp, by simp⟩

theorem sunoRefunds_of_failure {task : Task} (h : (sunoUpdated task item).status = .failure) :
    sunoRefunds task item = true := by
  rw [(sunoUpdated_spec task item).2.1] at h
  simp [sunoRefunds, h]

inductive Transition (env : Env) (s : System) : Event → System → Prop
  | idle (e : Event) : Transition env s e s
  | insert (task : Task) (hfree : s.rows.row task.id = none) :
      Transition env s (.insert task) { s with rows := s.rows.put (initTask task) }
  | loadUnfinished (j : Nat) (id : Int) (row : Task) (hj : s.objects j = none)
      (hrow : s.rows.row id = some row) (hopen : row.unfinished = true) :
      Transition env s (.loadUnfinished j id) (s.setObject j ⟨.poller, row, 0, none, false⟩)
  | loadTimedOut (j : Nat) (id cutoff : Int) (row : Task) (hj : s.objects j = none)
      (hrow : s.rows.row id = some row) (hopen : row.unfinished = true) :
      Transition env s (.loadTimedOut j id cutoff) (s.setObject j ⟨.sweeper, row, 0, none, false⟩)
  | loadByTaskId (j : Nat) (id : Int) (row : Task) (hj : s.objects j = none)
      (hrow : s.rows.row id = some row) :
      Transition env s (.loadByTaskId j id) (s.setObject j ⟨.query, row, 0, none, false⟩)
  | poll (j : Nat) (now : Int) (response : PollResponse) (ok : Bool) (o : TaskObject)
      (ho : s.objects j = some o) (hcan : o.canPoll = true) :
      Transition env s (.poll j now response ok)
        (s.visit j o (updateVideoSingleTask env now o.task response) ok)
  | sweep (j : Nat) (now : Int) (reason : String) (ok : Bool) (o : TaskObject)
      (ho : s.objects j = some o) (hcan : o.canSweep = true) :
      Transition env s (.sweep j now reason ok)
        (s.visit j o (sweepTimedOutTask now reason o.task) ok)
  | realtime (j : Nat) (channelType : Int) (fetched : Option TaskInfo) (ok : Bool)
      (o : TaskObject) (ho : s.objects j = some o) (hcan : o.canFetch = true) :
      Transition env s (.realtime j channelType fetched ok)
        (s.visit j o (tryRealtimeFetch env o.task channelType fetched) ok)
  | bill (j : Nat) (answers : QuotaAnswers) (inputs : SettleInputs) (o : TaskObject)
      (act : BillingAct) (ho : s.objects j = some o) (hact : o.pending = some act) :
      Transition env s (.bill j answers inputs) (s.bill j o act answers inputs)
  | sunoVisit (j : Nat) (item : SunoDataResponse) (answers : QuotaAnswers)
      (o : TaskObject) (ho : s.objects j = some o) (hcan : o.canSuno = true)
      (hneeds : taskNeedsUpdate env o.task item = true) :
      Transition env s (.sunoVisit j item answers) (s.sunoVisit j o item answers)
  | sunoSave (j : Nat) (ok : Bool) (o : TaskObject) (ho : s.objects j = some o)
      (hdirty : o.dirty = true) :
      Transition env s (.sunoSave j ok) (s.sunoSave j o ok)
  | bulkFail (objects : List Nat) (cause : BulkFailure) (ok : Bool) :
      Transition env s (.bulkFail objects cause ok)
        { s with
          rows := taskBulkUpdateByID s.rows (s.bulkIds objects cause) cause.failReason ok }

theorem load_cases (s : System) (j : Nat) (id : Int) (role : Role) (selects : Task → Bool) :
    s.load j id role selects = s ∨
      ∃ row, s.objects j = none ∧ s.rows.row id = some row ∧ selects row = true ∧
        s.load j id role selects = s.setObject j ⟨role, row, 0, none, false⟩ := by
  unfold System.load
  cases hj : s.objects j with
  | some => exact .inl rfl
  | none =>
    cases hrow : s.rows.row id with
    | none => exact .inl rfl
    | some row =>
      cases hsel : selects row with
      | false => exact .inl (by simp [hsel])
      | true => exact .inr ⟨row, rfl, rfl, hsel, by simp [hsel]⟩

theorem step_transition (env : Env) (s : System) (e : Event) :
    Transition env s e (step env s e) := by
  cases e <;> simp only [step]
  case insert task =>
    cases hrow : s.rows.row task.id with
    | none => exact .insert task hrow
    | some => exact .idle _
  case loadUnfinished j id =>
    rcases load_cases s j id .poller getAllUnFinishSyncTasks with h | ⟨row, hj, hrow, hsel, h⟩
    · rw [h]; exact .idle _
    · rw [h]; exact .loadUnfinished j id row hj hrow hsel
  case loadTimedOut j id cutoff =>
    rcases load_cases s j id .sweeper (getTimedOutUnfinishedTasks cutoff) with
      h | ⟨row, hj, hrow, hsel, h⟩
    · rw [h]; exact .idle _
    rw [h]
    simp only [getTimedOutUnfinishedTasks, Bool.and_eq_true] at hsel
    exact .loadTimedOut j id cutoff row hj hrow hsel.1
  case loadByTaskId j id =>
    rcases load_cases s j id .query (fun _ => true) with h | ⟨row, hj, hrow, -, h⟩
    · rw [h]; exact .idle _
    · rw [h]; exact .loadByTaskId j id row hj hrow
  case poll | sweep | realtime | bill | sunoSave =>
    split
    · next o ho =>
      split
      · constructor <;> assumption
      · exact .idle _
    · exact .idle _
  case sunoVisit j item answers =>
    split
    · next o ho =>
      split
      · next hboth =>
        obtain ⟨hcan, hneeds⟩ := Bool.and_eq_true_iff.mp hboth
        exact .sunoVisit j item answers o ho hcan hneeds
      · exact .idle _
    · exact .idle _
  case bulkFail objects cause ok => exact .bulkFail objects cause ok

variable {o : TaskObject} {s : System} {j : Nat} {v : Visit}

theorem ready_iff : o.ready = true ↔ o.pending = none ∧ o.dirty = false := by
  simp [TaskObject.ready]

theorem mem_sunoVisit_log {answers : QuotaAnswers} {entry : BillingEntry} (h : entry ∈ s.log) :
    entry ∈ (s.sunoVisit j o item answers).log := by
  simp only [System.sunoVisit]
  split
  · exact List.mem_cons_of_mem _ h
  · exact h

theorem cas_isSome {ok : Bool} (h : (s.cas v ok).2 = true) : v.casFrom.isSome = true := by
  unfold System.cas at h
  cases hfrom : v.casFrom with
  | none => simp [hfrom] at h
  | some => rfl

theorem visit_rows (hspec : VisitFrame o.task v) (ok : Bool) :
    ((s.cas v ok).2 = true ∧ v.casFrom = some o.task.status ∧
      (∃ row, s.rows.row o.task.id = some row ∧ row.status = o.task.status) ∧
      (s.visit j o v ok).rows = s.rows.put v.task) ∨
    ((s.cas v ok).2 = false ∧ (s.visit j o v ok).rows = s.rows) := by
  simp only [System.visit, System.cas]
  cases hfrom : v.casFrom with
  | none => exact .inr ⟨rfl, rfl⟩
  | some fromStatus =>
    have heq := hspec.casFrom fromStatus hfrom
    subst heq
    simp only
    cases hwon : (updateWithStatus s.rows v.task o.task.status ok).2 with
    | true =>
      obtain ⟨hrow, hput⟩ := updateWithStatus_won hwon
      rw [hspec.same.id] at hrow
      exact .inl ⟨rfl, trivial, hrow, hput⟩
    | false => exact .inr ⟨rfl, updateWithStatus_lost hwon⟩

/-- Object `j` has won the right to bill task `id` and has not used it yet. -/
def Owes (s : System) (j : Nat) (id : Int) : Prop :=
  ∃ o, s.objects j = some o ∧ o.pending.isSome = true ∧ o.task.id = id

theorem owes_update {s' : System} (hs' : s'.objects = Function.update s.objects j (some o))
    {k : Nat} {id : Int} :
    Owes s' k id ↔ k = j ∧ o.pending.isSome = true ∧ o.task.id = id ∨ k ≠ j ∧ Owes s k id := by
  constructor
  · rintro ⟨p, hp, hpending, hid⟩
    rw [hs', update_some_eq_some_iff] at hp
    rcases hp with ⟨rfl, rfl⟩ | ⟨hne, hold⟩
    · exact .inl ⟨rfl, hpending, hid⟩
    · exact .inr ⟨hne, p, hold, hpending, hid⟩
  · rintro (⟨rfl, hpending, hid⟩ | ⟨hne, p, hp, hpending, hid⟩)
    · exact ⟨o, by rw [hs', Function.update_self], hpending, hid⟩
    · exact ⟨p, by rw [hs', Function.update_of_ne hne, hp], hpending, hid⟩

theorem owes_of_update_none {s' : System}
    (hs' : s'.objects = Function.update s.objects j (some o)) (hnone : o.pending = none) {k : Nat}
    {id : Int} (hk : Owes s' k id) : k ≠ j ∧ Owes s k id := by
  rcases (owes_update hs').mp hk with ⟨-, hpending, -⟩ | hother
  · simp [hnone] at hpending
  · exact hother

/-- No row leaves a terminal status in this step. -/
def KeepsDone (env : Env) (s : System) (e : Event) : Prop := s.rows.KeepsDone (step env s e).rows

theorem insert_keepsDone {task : Task} (hfree : s.rows.row task.id = none) :
    s.rows.KeepsDone (s.rows.put (initTask task)) := by
  rw [TaskTable.keepsDone_put_iff]
  intro row hrow
  rw [show (initTask task).id = task.id from rfl, hfree] at hrow
  contradiction

theorem visit_keepsDone_iff (hframe : VisitFrame o.task v) (ok : Bool) :
    s.rows.KeepsDone (s.visit j o v ok).rows ↔
      (o.task.status.isDone = true → (s.cas v ok).2 = true → v.task.status = o.task.status) := by
  rcases visit_rows (j := j) hframe ok with ⟨hwon, -, ⟨row, hrow, hfrom⟩, hput⟩ | ⟨hlost, hsame⟩
  · rw [hput, TaskTable.keepsDone_put_iff, hframe.same.id]
    constructor
    · intro h hdone _
      rw [h row hrow (by rw [hfrom, hdone]), hfrom]
    · intro h row' hrow' hdone
      rw [hrow, Option.some.injEq] at hrow'
      subst hrow'
      rw [h (by rw [← hfrom, hdone]) hwon, hfrom]
  · rw [hsame]
    constructor
    · intro _ _ hwon
      rw [hlost] at hwon
      contradiction
    · exact fun _ => .refl s.rows

end

/-!
## When terminal statuses are final

`UpdateWithStatus` compares the stored status with the loaded one and nothing
else, `Task.Update` and the bulk updates compare nothing.  A row therefore
leaves `SUCCESS` or `FAILURE` exactly through a user query that loaded it
there, a second poll of one in-memory task, a Suno save of a stale copy or a
bulk update of a task that succeeded meanwhile.
-/

/-- From every point of the run on, a terminal status never changes again. -/
def Absorbing (env : Env) (s : System) (events : List Event) : Prop :=
  ∀ before later after, events = before ++ later ++ after →
    ∀ id row, (run (step env) s before).rows.row id = some row → row.status.isDone = true →
      ∃ row', (run (step env) s (before ++ later)).rows.row id = some row' ∧
        row'.status = row.status

private theorem absorbing_iff_admits (env : Env) (s : System) (events : List Event) :
    Absorbing env s events ↔ Admits (step env) (KeepsDone env) s events := by
  constructor
  · intro h
    rw [admits_iff_forall_split]
    intro before e after hsplit id row hrow hdone
    have hone := h before [e] after (by simp [hsplit]) id row hrow hdone
    rw [run_append] at hone
    exact hone
  · rintro h before later after rfl
    have hlater := ((admits_append ..).mp ((admits_append ..).mp h).1).2
    rw [run_append]
    exact Admits.relates (R := fun (a b : System) => a.rows.KeepsDone b.rows)
      (fun s => .refl s.rows) (fun _ _ _ => .trans) hlater

/-- The statuses of the `switch` in `updateVideoSingleTask`. -/
def TaskStatus.isPolled : TaskStatus → Bool
  | .submitted | .queued | .inProgress | .success | .failure => true
  | _ => false

/-- The row still has the terminal status that the task was loaded with, and the
database does not fail. -/
def DoneAsLoaded (s : System) (o : TaskObject) (ok : Bool) : Prop :=
  o.task.status.isDone = true ∧ ok = true ∧
    ∃ row ∈ s.rows.row o.task.id, row.status = o.task.status

def TerminalSafe (s : System) : Event → Prop
  | .poll j _ response ok => ∀ o ∈ s.objects j, o.canPoll = true → DoneAsLoaded s o ok →
      ∀ result ∈ response.taskResult, (TaskStatus.ofString result.status).isPolled = true →
        TaskStatus.ofString result.status = o.task.status
  | .realtime j channelType fetched ok => ∀ o ∈ s.objects j, o.canFetch = true →
      DoneAsLoaded s o ok →
      channelType = channelTypeVertexAi ∨ channelType = channelTypeGemini →
        ∀ info ∈ fetched, info.status ≠ "" →
          TaskStatus.ofString info.status = o.task.status
  | .sunoSave j ok => ∀ o ∈ s.objects j, o.dirty = true → ok = true →
      ∀ row ∈ s.rows.row o.task.id, row.status.isDone = true → o.task.status = row.status
  | .bulkFail objects cause ok => ok = true → ∀ id ∈ s.bulkIds objects cause,
      ∀ row ∈ s.rows.row id, row.status.isDone = true → row.status = .failure
  | _ => True

def SweeperOpen (s : System) : Prop :=
  ∀ j o, s.objects j = some o → o.role = .sweeper → o.visits = 0 → o.task.status.isDone = false

variable {env : Env} {s : System} {e : Event} {j : Nat}

theorem sweeperOpen_step (h : SweeperOpen s) : SweeperOpen (step env s e) := by
  have hvisit : ∀ j o v ok, SweeperOpen (s.visit j o v ok) := by
    intro j o v ok
    refine forall_update_some ?_ fun k p _ hp => h k p hp
    intro _ hvisits
    simp at hvisits
  have htrans := step_transition env s e
  generalize step env s e = s' at htrans ⊢
  cases htrans with
  | idle | insert | bulkFail => exact h
  | loadTimedOut j id cutoff row hj hrow hopen =>
    refine forall_update_some ?_ fun k p _ hp => h k p hp
    intro _ _
    simp only [Task.unfinished, Bool.and_eq_true, Bool.not_eq_true'] at hopen
    exact hopen.2
  | poll j now response ok o => exact hvisit j o _ ok
  | sweep j now reason ok o | realtime j channelType fetched ok o => exact hvisit j o _ ok
  | bill j answers inputs o act ho =>
    refine forall_update_some ?_ fun k p _ hp => h k p hp
    intro hrole hvisits
    rw [(performBilling_id answers inputs o.task act).2]
    exact h j o ho hrole hvisits
  | sunoVisit =>
    refine forall_update_some ?_ fun k p _ hp => h k p hp
    intro _ hvisits
    simp at hvisits
  | sunoSave j ok o ho => exact forall_update_some (h j o ho) fun k p _ hp => h k p hp
  | _ =>
    refine forall_update_some ?_ fun k p _ hp => h k p hp
    intro hrole
    contradiction

theorem keepsDone_guarded_iff {ready : TaskObject → Bool} {next : TaskObject → System}
    (safe : TaskObject → Prop)
    (h : ∀ o, s.objects j = some o → ready o = true → (s.rows.KeepsDone (next o).rows ↔ safe o)) :
    s.rows.KeepsDone (match s.objects j with
        | some o => if ready o then next o else s
        | none => s).rows ↔
      ∀ o ∈ s.objects j, ready o = true → safe o := by
  cases ho : s.objects j with
  | none => simpa using TaskTable.KeepsDone.refl s.rows
  | some o =>
    cases hready : ready o with
    | false => simpa [hready] using TaskTable.KeepsDone.refl s.rows
    | true => simpa [hready] using h o ho hready

theorem cas_won_iff {o : TaskObject} {v : Visit} (hframe : VisitFrame o.task v) (ok : Bool) :
    (s.cas v ok).2 = true ↔ v.casFrom.isSome = true ∧ ok = true ∧
      ∃ row ∈ s.rows.row o.task.id, row.status = o.task.status := by
  unfold System.cas
  cases hfrom : v.casFrom with
  | none => simp
  | some status =>
    rw [hframe.casFrom status hfrom]
    simp only [updateWithStatus, hframe.same.id]
    cases s.rows.row o.task.id with
    | none => simp
    | some row => by_cases hwon : ok = true ∧ row.status = o.task.status <;> simp [hwon]

theorem visit_keepsDone_iff_written {o : TaskObject} {v : Visit} (hframe : VisitFrame o.task v)
    (ok : Bool) :
    s.rows.KeepsDone (s.visit j o v ok).rows ↔
      (DoneAsLoaded s o ok → v.casFrom.isSome = true → v.task.status = o.task.status) := by
  rw [visit_keepsDone_iff hframe ok, cas_won_iff hframe]
  constructor
  · rintro h ⟨hdone, hrow⟩ hfrom
    exact h hdone ⟨hfrom, hrow⟩
  · rintro h hdone ⟨hfrom, hrow⟩
    exact h ⟨hdone, hrow⟩ hfrom

private theorem applyTaskResult_status (env : Env) (now : Int) (task : Task) (result : TaskInfo) :
    (applyTaskResult env now task result).map (·.1.status) =
      if (TaskStatus.ofString result.status).isPolled = true then
        some (TaskStatus.ofString result.status)
      else none := by
  unfold applyTaskResult
  cases TaskStatus.ofString result.status with
  | submitted | queued => simp [TaskStatus.isPolled, (advanced_orProgress _ _).status]
  | inProgress =>
    simp [TaskStatus.isPolled, (advanced_orProgress _ _).status, (advanced_started _ _).status]
  | success =>
    simp [TaskStatus.isPolled, (advanced_orProgress _ _).status,
      (advanced_withResultURL _ _).status, (advanced_finished _ _).status]
  | failure => simp [TaskStatus.isPolled, (advanced_finished _ _).status]
  | _ => rfl

private theorem polled_status_iff {now : Int} {task : Task} {response : PollResponse} :
    ((updateVideoSingleTask env now task response).casFrom.isSome = true →
        (updateVideoSingleTask env now task response).task.status = task.status) ↔
      ∀ result ∈ response.taskResult, (TaskStatus.ofString result.status).isPolled = true →
        TaskStatus.ofString result.status = task.status := by
  unfold updateVideoSingleTask
  cases response.taskResult with
  | none => simp [Visit.none]
  | some result =>
    have hstatus := applyTaskResult_status env now { task with data := response.redacted } result
    simp only [Option.mem_def, Option.some.injEq, forall_eq']
    cases happly : applyTaskResult env now { task with data := response.redacted } result with
    | none =>
      rw [happly] at hstatus
      have hother : (TaskStatus.ofString result.status).isPolled = false := by
        by_contra hpolled
        rw [if_pos (Bool.not_eq_false _ ▸ hpolled)] at hstatus
        cases hstatus
      simp [Visit.none, hother]
    | some applied =>
      obtain ⟨visited, act⟩ := applied
      rw [happly] at hstatus
      obtain ⟨hpolled, hsame⟩ : (TaskStatus.ofString result.status).isPolled = true ∧
          TaskStatus.ofString result.status = visited.status := by
        split at hstatus
        · next hpolled => exact ⟨hpolled, (Option.some.inj hstatus).symm⟩
        · cases hstatus
      rw [hsame] at hpolled
      simp only [hsame, hpolled, true_imp_iff]
      split
      · simp
      · split
        · simp
        · next hequal =>
          -- nothing is written, and the snapshots have one status
          have hkept := congrArg TaskSnapshot.status (not_not.mp hequal)
          simp [show visited.status = task.status from hkept.symm]

private theorem fetched_status_iff {task : Task} {channelType : Int} {fetched : Option TaskInfo} :
    ((tryRealtimeFetch env task channelType fetched).casFrom.isSome = true →
        (tryRealtimeFetch env task channelType fetched).task.status = task.status) ↔
      (channelType = channelTypeVertexAi ∨ channelType = channelTypeGemini →
        ∀ info ∈ fetched, info.status ≠ "" → TaskStatus.ofString info.status = task.status) := by
  unfold tryRealtimeFetch
  by_cases hchannel : channelType ≠ channelTypeVertexAi ∧ channelType ≠ channelTypeGemini
  · simp [hchannel, Visit.none]
  have hasked : channelType = channelTypeVertexAi ∨ channelType = channelTypeGemini := by
    by_contra hnot
    exact hchannel (not_or.mp hnot)
  rw [if_neg hchannel]
  cases fetched with
  | none => simp [Visit.none]
  | some info =>
    simp only [hasked, true_imp_iff, Option.mem_def, Option.some.injEq, forall_eq']
    generalize hpolled : (if info.status ≠ "" then
      { task with status := TaskStatus.ofString info.status } else task) = polled
    have hstatus : polled.status = task.status ↔
        (info.status ≠ "" → TaskStatus.ofString info.status = task.status) := by
      subst hpolled
      by_cases hempty : info.status = "" <;> simp [hempty]
    have hprogress := (advanced_orProgress polled info.progress).status
    generalize polled.orProgress info.progress = polled' at hprogress ⊢
    generalize hfinal : (if info.url.startsWith "data:" = true then polled'
      else if info.url ≠ "" then polled'.withResultURL info.url
      else if polled'.status = .success then
        polled'.withResultURL (env.buildProxyURL polled'.taskID)
      else polled') = final
    have hsame : final.status = polled.status := by
      subst hfinal
      repeat' split
      all_goals exact hprogress
    rw [← hstatus, ← hsame]
    split
    · simp
    · next hequal =>
      have hkept := congrArg TaskSnapshot.status (not_not.mp hequal)
      simp [show final.status = task.status from hkept.symm]

theorem keepsDone_iff (hopen : SweeperOpen s) : KeepsDone env s e ↔ TerminalSafe s e := by
  have hsame : (∀ s', Transition env s e s' → s'.rows = s.rows) → (KeepsDone env s e ↔ True) := by
    intro heq
    rw [KeepsDone, heq _ (step_transition env s e)]
    exact iff_true_intro (.refl s.rows)
  cases e with
  | insert task =>
    simp only [KeepsDone, step, TerminalSafe, iff_true]
    cases hrow : s.rows.row task.id with
    | none => exact insert_keepsDone hrow
    | some => exact .refl s.rows
  | poll j now response ok =>
    apply keepsDone_guarded_iff
    intro o _ _
    rw [visit_keepsDone_iff_written (updateVideoSingleTask_spec env now o.task response).1.1 ok,
      polled_status_iff]
  | sweep j now reason ok =>
    refine (keepsDone_guarded_iff (fun _ => True) ?_).trans (by simp [TerminalSafe])
    intro o ho hcan
    simp only [TaskObject.canSweep, Bool.and_eq_true, decide_eq_true_eq] at hcan
    rw [visit_keepsDone_iff (sweepTimedOutTask_frame now reason o.task) ok,
      hopen j o ho hcan.1.2 hcan.2]
    simp
  | realtime j channelType fetched ok =>
    apply keepsDone_guarded_iff
    intro o _ _
    rw [visit_keepsDone_iff_written
      (tryRealtimeFetch_spec env o.task channelType fetched).1.1 ok, fetched_status_iff]
  | sunoSave j ok =>
    apply keepsDone_guarded_iff
    intro o _ _
    cases ok with
    | false => simpa [System.sunoSave, update] using TaskTable.KeepsDone.refl s.rows
    | true => simpa [System.sunoSave, update] using TaskTable.keepsDone_put_iff s.rows o.task
  | bulkFail => exact TaskTable.keepsDone_bulk_iff ..
  | _ => exact hsame (by rintro _ (_ | _) <;> rfl)

theorem sweeperOpen_init (rows : TaskTable) : SweeperOpen (.init rows) := by
  simp [SweeperOpen, System.init]

/-- Terminal statuses are final in exactly the runs whose steps are all safe. -/
theorem terminal_absorbing_iff (env : Env) (rows : TaskTable) (events : List Event) :
    Absorbing env (.init rows) events ↔
      Admits (step env) TerminalSafe (.init rows) events := by
  rw [absorbing_iff_admits]
  constructor
  · exact Admits.steps SweeperOpen
      (fun s e hs he => ⟨sweeperOpen_step hs, (keepsDone_iff hs).mp he⟩) (sweeperOpen_init rows)
  · exact Admits.steps SweeperOpen
      (fun s e hs he => ⟨sweeperOpen_step hs, (keepsDone_iff hs).mpr he⟩) (sweeperOpen_init rows)

/-- A swept and refunded task is queried; upstream still reports progress.  The
next sweep finds it again and refunds it again. -/
def reopenedRun : List Event :=
  [.insert (plainTask (.other "video") 500), .loadTimedOut 0 1 1900000000,
    .sweep 0 1850000000 "timeout" true, .bill 0 allOk noSettlement,
    .loadByTaskId 1 1,
    .realtime 1 channelTypeGemini (some { plainInfo "IN_PROGRESS" with progress := "50%" }) true,
    .loadTimedOut 2 1 1900000000, .sweep 2 1850000900 "timeout" true,
    .bill 2 allOk noSettlement]

/-- Two Suno pollers hold the same task; the one with the older answer saves last. -/
def staleSaveRun : List Event :=
  [.insert (plainTask .suno 300), .loadUnfinished 0 1, .loadUnfinished 1 1,
    .sunoVisit 0 (plainItem "IN_PROGRESS" "") allOk,
    .sunoVisit 1 (plainItem "SUCCESS" "") allOk, .sunoSave 1 true, .sunoSave 0 true]

theorem terminal_status_left :
    ¬ Absorbing plainEnv (.init .empty) reopenedRun ∧
    (run (step plainEnv) (.init .empty) reopenedRun).log.map (·.ops) =
      [[.user 7 (-500)], [.user 7 (-500)]] ∧
    ¬ Absorbing plainEnv (.init .empty) staleSaveRun := by
  refine ⟨?_, by decide, ?_⟩
  · intro h
    obtain ⟨row', hrow', hstatus⟩ := h (reopenedRun.take 5) ((reopenedRun.drop 5).take 1)
      (reopenedRun.drop 6) rfl 1 _ rfl (by decide)
    cases hrow'
    contradiction
  · intro h
    obtain ⟨row', hrow', hstatus⟩ := h (staleSaveRun.take 6) (staleSaveRun.drop 6) [] rfl
      1 _ rfl (by decide)
    cases hrow'
    contradiction

end NewApi.Tasks
