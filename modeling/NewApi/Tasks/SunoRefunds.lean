import NewApi.Tasks.Transition

/-!
# How often a Suno task is refunded

`updateSunoTasks` refunds before it saves and saves without a guard, so that
nothing ties the refund to the row.  The refund is issued once if every
refunding visit starts from an unfinished row that no other visit is about to
overwrite, and its save reaches the table before anybody else acts on it.
-/

namespace NewApi.Tasks

open Foundation Tasks.System Function

structure SunoAnswers where
  quota : QuotaAnswers
  saved : Bool

/--
The loop of `updateSunoTasks` over the response items.  An id that the poller
did not ask for is a nil task, on which the process stops.
-/
def updateSunoTasks (taskM : String → Option Nat) :
    List (SunoDataResponse × SunoAnswers) → List Event
  | [] => []
  | (item, answers) :: rest =>
    match taskM item.taskID with
    | none => []
    | some j =>
      .sunoVisit j item answers.quota :: .sunoSave j answers.saved :: updateSunoTasks taskM rest

def isRefundOf (id : Int) (entry : BillingEntry) : Bool :=
  decide (entry.act = .refund) && decide (entry.task.id = id)

section

variable (s : System)

def refunds (id : Int) : Nat := s.log.countP (isRefundOf id)

def RowFinished (id : Int) : Prop := ∃ row, s.rows.row id = some row ∧ row.unfinished = false

def RefundedBy (j : Nat) (id : Int) : Prop :=
  ∃ entry ∈ s.log, entry.object = j ∧ isRefundOf id entry = true

def Unsaved (j : Nat) (id : Int) : Prop :=
  ∃ o, s.objects j = some o ∧ o.dirty = true ∧ o.task.id = id ∧
    o.task.unfinished = false ∧ RefundedBy s j id

def Untouched (id : Int) : Prop := ¬ RowFinished s id ∧ ∀ j, ¬ Unsaved s j id

/--
The condition on a step.  A refund is issued only for an unfinished row that
no other refund is about to finish; the save after a refund succeeds; an
unfinished copy is not saved over a finished row.
-/
def SunoSafe : Event → Prop
  | .sunoVisit j item _ => ∀ o ∈ s.objects j, sunoRefunds o.task item = true → Untouched s o.task.id
  | .sunoSave j ok => ∀ o ∈ s.objects j,
      (o.task.unfinished = false → RefundedBy s j o.task.id → ok = true) ∧
      (ok = true → o.task.unfinished = true → ¬ RowFinished s o.task.id)
  | .sweep j now reason ok => ∀ o ∈ s.objects j,
      (sweepTimedOutTask now reason o.task).act.isSome = true →
      (s.cas (sweepTimedOutTask now reason o.task) ok).2 = true →
      Untouched s o.task.id
  | .insert _ | .poll .. | .realtime .. => False
  | _ => True

end

structure SunoInv (s : System) : Prop where
  once : ∀ id, refunds s id ≤ 1
  owes : ∀ j id, Owes s j id → refunds s id = 0 ∧ RowFinished s id
  unique : ∀ j k id, Owes s j id → Owes s k id → j = k
  finished : ∀ id, refunds s id ≠ 0 → RowFinished s id ∨ ∃ j, Unsaved s j id

private theorem sunoInv_init (rows : TaskTable) : SunoInv (.init rows) where
  once := by simp [init, refunds]
  owes := by simp [init, Owes]
  unique := by simp [init, Owes]
  finished := by simp [init, refunds]

variable {s s' : System} {j : Nat} {o : TaskObject}

theorem SunoInv.untouched (h : SunoInv s) {id : Int} (hid : Untouched s id) :
    refunds s id = 0 ∧ ∀ j, ¬ Owes s j id := by
  constructor
  · by_contra hne
    rcases h.finished id hne with hdone | ⟨j, hj⟩
    · exact hid.1 hdone
    · exact hid.2 j hj
  · intro j howes
    exact hid.1 (h.owes j id howes).2

/-- A step may refund a task nobody owes, and object `j` may come to owe an untouched one. -/
theorem SunoInv.next (h : SunoInv s) (j : Nat)
    (hrefunds : ∀ id, refunds s' id = refunds s id ∨ refunds s' id ≤ 1 ∧
      (∀ k, ¬ Owes s' k id) ∧ (RowFinished s' id ∨ ∃ k, Unsaved s' k id))
    (howes : ∀ k id, Owes s' k id → Owes s k id ∨ k = j ∧ Untouched s id ∧ RowFinished s' id)
    (hrows : ∀ id, RowFinished s id → RowFinished s' id)
    (hunsaved : ∀ k id, Unsaved s k id → RowFinished s' id ∨ Unsaved s' k id) : SunoInv s' := by
  refine ⟨?_, ?_, ?_, ?_⟩
  · intro id
    rcases hrefunds id with hsame | ⟨hle, -, -⟩
    · rw [hsame]
      exact h.once id
    · exact hle
  · intro k id hk
    rcases hrefunds id with hsame | ⟨-, hnone, -⟩
    · rw [hsame]
      rcases howes k id hk with hold | ⟨-, huntouched, hrow⟩
      · exact ⟨(h.owes k id hold).1, hrows id (h.owes k id hold).2⟩
      · exact ⟨(h.untouched huntouched).1, hrow⟩
    · exact absurd hk (hnone k)
  · intro k l id hk hl
    rcases howes k id hk with hk' | ⟨rfl, huntouched, -⟩
    · rcases howes l id hl with hl' | ⟨rfl, huntouched, -⟩
      · exact h.unique k l id hk' hl'
      · exact absurd hk' ((h.untouched huntouched).2 k)
    · rcases howes l id hl with hl' | ⟨rfl, -, -⟩
      · exact absurd hl' ((h.untouched huntouched).2 l)
      · rfl
  · intro id hne
    rcases hrefunds id with hsame | ⟨-, -, hdone⟩
    · rw [hsame] at hne
      rcases h.finished id hne with hrow | ⟨k, hk⟩
      · exact .inl (hrows id hrow)
      · exact (hunsaved k id hk).imp_right fun hstill => ⟨k, hstill⟩
    · exact hdone

theorem SunoInv.of_same_log (h : SunoInv s) (hlog : s'.log = s.log)
    (hrows : ∀ id, RowFinished s id → RowFinished s' id)
    (howes : ∀ j id, Owes s' j id → Owes s j id)
    (hunsaved : ∀ j id, Unsaved s j id → RowFinished s' id ∨ Unsaved s' j id) : SunoInv s' := by
  refine h.next 0 (fun id => .inl ?_) (fun k id hk => .inl (howes k id hk)) hrows hunsaved
  rw [refunds, refunds, hlog]

theorem unsaved_update {k : Nat} {o' : TaskObject} {id : Int} (h : Unsaved s k id)
    (hlog : ∀ entry ∈ s.log, entry ∈ s'.log)
    (hobjects : s'.objects = Function.update s.objects j (some o')) (ho : s.objects j = some o)
    (hclean : o.dirty = false) : Unsaved s' k id := by
  obtain ⟨p, hp, hdirty, hid, hfinished, entry, hmem, hentry⟩ := h
  have hkj : k ≠ j := by
    rintro rfl
    rw [ho, Option.some.injEq] at hp
    rw [← hp, hclean] at hdirty
    contradiction
  refine ⟨p, ?_, hdirty, hid, hfinished, entry, hlog entry hmem, hentry⟩
  rw [hobjects, update_of_ne hkj, hp]

theorem refunds_cons {entry : BillingEntry} (hlog : s'.log = entry :: s.log) (id : Int) :
    (entry.task.id ≠ id → refunds s' id = refunds s id) ∧ refunds s' id ≤ refunds s id + 1 := by
  rw [refunds, refunds, hlog, List.countP_cons]
  refine ⟨fun hid => by simp [isRefundOf, hid], ?_⟩
  split <;> omega

theorem rowFinished_put {rows : TaskTable} {task : Task} {id : Int} (hs : s.rows = rows)
    (hs' : s'.rows = rows.put task) (htask : RowFinished s task.id → task.unfinished = false)
    (h : RowFinished s id) : RowFinished s' id := by
  by_cases hid : id = task.id
  · subst hid
    exact ⟨task, by rw [hs', TaskTable.put_row_self], htask h⟩
  · obtain ⟨row, hrow, hfinished⟩ := h
    exact ⟨row, by rw [hs', TaskTable.put_row_ne _ _ hid, ← hs, hrow], hfinished⟩

section

variable (h : SunoInv s)
include h

theorem SunoInv.load (hj : s.objects j = none) (role : Role) (row : Task) :
    SunoInv (s.setObject j ⟨role, row, 0, none, false⟩) := by
  refine h.of_same_log rfl (fun _ hrow => hrow) ?_ ?_
  · exact fun k id hk => (owes_of_update_none rfl rfl hk).2
  · rintro k id ⟨p, hp, hrest⟩
    have hkj : k ≠ j := by
      rintro rfl
      rw [hj] at hp
      contradiction
    exact .inr ⟨p, by simp [setObject, update_of_ne hkj, hp], hrest⟩

section

variable (ho : s.objects j = some o)
include ho

variable {ok : Bool} {answers : QuotaAnswers}

theorem SunoInv.sweep {now : Int} {reason : String} (hready : o.ready = true)
    (hsafe : (sweepTimedOutTask now reason o.task).act.isSome = true →
      (s.cas (sweepTimedOutTask now reason o.task) ok).2 = true →
      Untouched s o.task.id) : SunoInv (s.visit j o (sweepTimedOutTask now reason o.task) ok) := by
  have hclean := (ready_iff.mp hready).2
  rcases visit_rows (j := j) (sweepTimedOutTask_frame now reason o.task) ok with
    ⟨hwon, -, -, hput⟩ | ⟨hlost, hsame⟩
  · have hrows : ∀ id, RowFinished s id →
        RowFinished (s.visit j o (sweepTimedOutTask now reason o.task) ok) id :=
      fun id => rowFinished_put rfl hput fun _ => by simp [sweepTimedOutTask, Task.unfinished]
    refine h.next j (fun _ => .inl rfl) ?_ hrows ?_
    · intro k id hk
      rcases (owes_update rfl).mp hk with ⟨rfl, hpending, rfl⟩ | ⟨-, hold⟩
      · -- a sweep that bills has found the row untouched
        have hact : (sweepTimedOutTask now reason o.task).act.isSome = true := by
          simpa [hwon] using hpending
        refine .inr ⟨rfl, hsafe hact hwon, (sweepTimedOutTask now reason o.task).task, ?_, ?_⟩
        · rw [hput]
          exact TaskTable.put_row_self ..
        · simp [sweepTimedOutTask, Task.unfinished]
      · exact .inl hold
    · exact fun k id hk => .inr (unsaved_update hk (fun _ hmem => hmem) rfl ho hclean)
  · refine h.of_same_log rfl ?_ ?_ ?_
    · rintro id ⟨row, hrow, hfinished⟩
      exact ⟨row, by rw [hsame, hrow], hfinished⟩
    · intro k id hk
      rcases (owes_update rfl).mp hk with ⟨-, hpending, -⟩ | ⟨-, hold⟩
      · rw [if_pos ⟨rfl, hlost⟩] at hpending
        contradiction
      · exact hold
    · intro k id hk
      exact .inr (unsaved_update hk (fun _ hmem => hmem) rfl ho hclean)

theorem SunoInv.bill {inputs : SettleInputs} {act : BillingAct} (hact : o.pending = some act) :
    SunoInv (s.bill j o act answers inputs) := by
  have howed : Owes s j o.task.id := ⟨o, ho, by simp [hact], rfl⟩
  obtain ⟨hzero, hfinished⟩ := h.owes j o.task.id howed
  have howes : ∀ k id, Owes (s.bill j o act answers inputs) k id →
      id ≠ o.task.id ∧ Owes s k id := by
    intro k id hk
    obtain ⟨hkj, hold⟩ := owes_of_update_none rfl rfl hk
    refine ⟨?_, hold⟩
    rintro rfl
    exact hkj (h.unique k j o.task.id hold howed)
  refine h.next j ?_ (fun k id hk => .inl (howes k id hk).2) (fun _ hrow => hrow) ?_
  · intro id
    by_cases hid : id = o.task.id
    · subst hid
      refine .inr ⟨?_, fun k hk => (howes k _ hk).1 rfl, .inl hfinished⟩
      exact (refunds_cons rfl _).2.trans (by omega)
    · exact .inl ((refunds_cons rfl id).1 (Ne.symm hid))
  · rintro k id ⟨p, hp, hdirty, hpid, hopen, entry, hmem, hentry⟩
    by_cases hkj : k = j
    · rw [hkj, ho, Option.some.injEq] at hp
      rw [← hpid, ← hp]
      exact .inl hfinished
    · refine .inr ⟨p, ?_, hdirty, hpid, hopen, entry, List.mem_cons_of_mem _ hmem, hentry⟩
      simp [System.bill, update_of_ne hkj, hp]

theorem SunoInv.sunoVisit {item : SunoDataResponse} (hready : o.ready = true)
    (hsafe : sunoRefunds o.task item = true → Untouched s o.task.id) :
    SunoInv (s.sunoVisit j o item answers) := by
  obtain ⟨hnone, hclean⟩ := ready_iff.mp hready
  obtain ⟨hsame, -, hprogress⟩ := sunoUpdated_spec o.task item
  have howes : ∀ k id, Owes (s.sunoVisit j o item answers) k id → Owes s k id :=
    fun _ _ hk => (owes_of_update_none rfl (by exact hnone) hk).2
  have hunsaved : ∀ k id, Unsaved s k id → Unsaved (s.sunoVisit j o item answers) k id :=
    fun k id hk => unsaved_update hk (fun _ hmem => mem_sunoVisit_log hmem) rfl ho hclean
  cases hrefund : sunoRefunds o.task item with
  | false =>
    refine h.of_same_log ?_ (fun _ hrow => hrow) howes fun k id hk => .inr (hunsaved k id hk)
    simp [System.sunoVisit, hrefund]
  | true =>
    obtain ⟨hzero, hnoOwes⟩ := h.untouched (hsafe hrefund)
    have hlog : (s.sunoVisit j o item answers).log = sunoEntry j o item answers :: s.log := by
      simp [System.sunoVisit, hrefund]
    have hsaved : Unsaved (s.sunoVisit j o item answers) j o.task.id := by
      refine ⟨_, update_self .., rfl, hsame.id, ?_, sunoEntry j o item answers,
        by simp [hlog], rfl, by simp [isRefundOf, sunoEntry, Task.withItem]⟩
      simp [Task.unfinished, hprogress hrefund]
    refine h.next j ?_ (fun k id hk => .inl (howes k id hk)) (fun _ hrow => hrow)
      fun k id hk => .inr (hunsaved k id hk)
    intro id
    by_cases hid : id = o.task.id
    · subst hid
      exact .inr ⟨(refunds_cons hlog _).2.trans (by omega),
        fun k hk => hnoOwes k (howes k _ hk), .inr ⟨j, hsaved⟩⟩
    · exact .inl ((refunds_cons hlog id).1 (Ne.symm hid))

theorem SunoInv.sunoSave
    (hrefunded : o.task.unfinished = false → RefundedBy s j o.task.id → ok = true)
    (hstale : ok = true → o.task.unfinished = true → ¬ RowFinished s o.task.id) :
    SunoInv (s.sunoSave j o ok) := by
  refine h.of_same_log rfl ?_ ?_ ?_
  · intro id hrow
    cases ok with
    | false => exact hrow
    | true =>
      refine rowFinished_put rfl rfl ?_ hrow
      intro hfinished
      by_contra hopen
      exact hstale rfl (by simpa using hopen) hfinished
  · intro k id hk
    rcases (owes_update rfl).mp hk with ⟨rfl, hpending, hid⟩ | ⟨-, hold⟩
    · exact ⟨o, ho, hpending, hid⟩
    · exact hold
  · rintro k id ⟨p, hp, hdirty, hid, hfinished, hlogged⟩
    by_cases hkj : k = j
    · subst hkj
      rw [ho, Option.some.injEq] at hp
      subst hp hid
      obtain rfl := hrefunded hfinished hlogged
      exact .inl ⟨o.task, by simp [sunoSave, update], hfinished⟩
    · refine .inr ⟨p, ?_, hdirty, hid, hfinished, hlogged⟩
      simp [System.sunoSave, update_of_ne hkj, hp]

end

theorem sunoInv_step {env : Env} {e : Event} (hsafe : SunoSafe s e) : SunoInv (step env s e) := by
  have htrans := step_transition env s e
  generalize step env s e = s' at htrans ⊢
  cases htrans with
  | idle => exact h
  | loadUnfinished j id row hj | loadByTaskId j id row hj => exact h.load hj _ row
  | loadTimedOut j id cutoff row hj => exact h.load hj _ row
  | sweep j now reason ok o ho hcan =>
    simp only [TaskObject.canSweep, Bool.and_eq_true] at hcan
    exact h.sweep ho hcan.1.1 (hsafe o ho)
  | bill j answers inputs o act ho hact => exact h.bill ho hact
  | sunoVisit j item answers o ho hcan =>
    simp only [TaskObject.canSuno, Bool.and_eq_true] at hcan
    exact h.sunoVisit ho hcan.1.1 (hsafe o ho)
  | sunoSave j ok o ho =>
    obtain ⟨hrefunded, hstale⟩ := hsafe o ho
    exact h.sunoSave ho hrefunded hstale
  | bulkFail objects cause ok =>
    refine h.of_same_log rfl ?_ (fun _ _ hk => hk) fun _ _ hk => .inr hk
    rintro id ⟨row, hrow, hfinished⟩
    by_cases hhit : ok = true ∧ id ∈ s.bulkIds objects cause
    · refine ⟨row.bulkFailed cause.failReason, by simp [taskBulkUpdateByID, hhit, hrow], ?_⟩
      simp [Task.bulkFailed, Task.unfinished]
    · refine ⟨row, ?_, hfinished⟩
      simp [taskBulkUpdateByID, if_neg hhit, hrow]
  | _ => exact hsafe.elim

end

/-- In every run of pollers and sweepers that is safe, each task is refunded at most once. -/
theorem suno_refunds_once (env : Env) (rows : TaskTable) (events : List Event)
    (h : Admits (step env) SunoSafe (.init rows) events) (id : Int) :
    refunds (run (step env) (.init rows) events) id ≤ 1 :=
  (Admits.invariant SunoInv (fun _ _ hs he => sunoInv_step hs he) (sunoInv_init rows) h).once id

def oneSunoTask : TaskTable := TaskTable.empty.put (plainTask .suno 300)

/-- A poller refunds and saves a failed task that the sweeper holds as well. -/
def sunoThenSweep : List Event :=
  [.loadUnfinished 0 1, .loadTimedOut 1 1 1900000000,
    .sunoVisit 0 (plainItem "FAILURE" "") allOk, .sunoSave 0 true,
    .sweep 1 1850000000 "timeout" true, .bill 1 allOk noSettlement]

theorem suno_refunds_once_race :
    Admits (step plainEnv) SunoSafe (.init oneSunoTask) sunoThenSweep ∧
    refunds (run (step plainEnv) (.init oneSunoTask) sunoThenSweep) 1 ≤ 1 := by
  have hsafe : Admits (step plainEnv) SunoSafe (.init oneSunoTask) sunoThenSweep := by
    refine ⟨trivial, trivial, ?_, ?_, ?_, trivial, trivial⟩
    · intro o ho _
      cases ho
      constructor
      · rintro ⟨row, hrow, hfinished⟩
        cases hrow
        contradiction
      · rintro j ⟨_, _, _, _, _, entry, hmem, _⟩
        exact List.not_mem_nil hmem
    · intro o ho
      cases ho
      exact ⟨fun _ _ => rfl, fun _ hopen => absurd hopen (by decide)⟩
    · intro o ho _ hwon
      cases ho
      exact absurd hwon (by decide)
  exact ⟨hsafe, suno_refunds_once plainEnv oneSunoTask sunoThenSweep hsafe 1⟩

def saved : SunoAnswers := { quota := allOk, saved := true }

def notSaved : SunoAnswers := { quota := allOk, saved := false }

/-- One response lists the failed task twice, the second time with a finish time. -/
def repeatedItemRun : List Event :=
  .loadUnfinished 0 1 :: updateSunoTasks (fun _ => some 0)
    [(plainItem "FAILURE" "", saved), ({ plainItem "FAILURE" "" with finishTime := 5 }, saved)]

/-- The save fails, and the next round loads the task again. -/
def failedWriteRun : List Event :=
  .loadUnfinished 0 1 :: updateSunoTasks (fun _ => some 0) [(plainItem "FAILURE" "", notSaved)] ++
  .loadUnfinished 1 1 :: updateSunoTasks (fun _ => some 1) [(plainItem "FAILURE" "", saved)]

/-- Two nodes have loaded the task before either saves it. -/
def twoPollersRun : List Event :=
  .loadUnfinished 0 1 :: .loadUnfinished 1 1 ::
    updateSunoTasks (fun _ => some 0) [(plainItem "FAILURE" "", saved)] ++
    updateSunoTasks (fun _ => some 1) [(plainItem "FAILURE" "", saved)]

/-- A failure reason without a failure status leaves the status the sweeper loaded. -/
def failReasonRun : List Event :=
  .loadUnfinished 0 1 :: .loadTimedOut 1 1 1900000000 ::
    updateSunoTasks (fun _ => some 0) [(plainItem "" "moderation", saved)] ++
  [.sweep 1 1850000000 "timeout" true, .bill 1 allOk noSettlement]

theorem suno_refunded_twice :
    refunds (run (step plainEnv) (.init oneSunoTask) repeatedItemRun) 1 = 2 ∧
    refunds (run (step plainEnv) (.init oneSunoTask) failedWriteRun) 1 = 2 ∧
    refunds (run (step plainEnv) (.init oneSunoTask) twoPollersRun) 1 = 2 ∧
    refunds (run (step plainEnv) (.init oneSunoTask) failReasonRun) 1 = 2 := by
  decide

end NewApi.Tasks
