import NewApi.Tasks.Transition

/-!
# Failed tasks are refunded

Six writers can put `FAILURE` into a row.  The pollers and the sweeper leave a
refund to their own next action and a Suno visit issues it before the row is
saved.  The bulk updates and the realtime fetch write the status and nothing
else: a task they fail while it carries a charge is never refunded.
-/

namespace NewApi.Tasks

open Foundation TaskObject Tasks.System

def Refunded (s : System) (j : Nat) (task : Task) : Prop :=
  ∃ entry ∈ s.log, entry.object = j ∧ entry.act = .refund ∧ entry.task.id = task.id ∧
    refundOp task ∈ entry.ops

def RefundDue (s : System) (j : Nat) (task : Task) : Prop :=
  ∃ o, s.objects j = some o ∧ o.pending = some .refund ∧ SameTask o.task task

/-- Object `j` has refunded the whole quota of the task or is about to. -/
def Answered (s : System) (j : Nat) (task : Task) : Prop := Refunded s j task ∨ RefundDue s j task

/-- A charged row that this step moves into `FAILURE` is answered by its own writer. -/
def FailureAnswered (env : Env) (s : System) (e : Event) : Prop :=
  ∀ id row row', s.rows.row id = some row → row.status ≠ .failure →
    (step env s e).rows.row id = some row' → row'.status = .failure → row'.quota ≠ 0 →
    ∃ j, e.object = some j ∧ Answered (step env s e) j row'

/--
The quota layer accepts every refund, the sweeper meets no legacy task, and
neither a bulk update nor a realtime fetch moves a charged task into `FAILURE`.
-/
def RefundSafe (env : Env) (s : System) : Event → Prop
  | .bill _ answers _ => answers.fundingOk = true
  | .sunoVisit _ _ answers => answers.fundingOk = true
  | .sweep j .. => ∀ o ∈ s.objects j, o.task.isLegacy = false
  | .realtime j channelType fetched ok => ∀ o ∈ s.objects j,
      o.task.quota ≠ 0 → o.task.status ≠ .failure →
      (tryRealtimeFetch env o.task channelType fetched).task.status = .failure →
      (s.cas (tryRealtimeFetch env o.task channelType fetched) ok).2 = false
  | .bulkFail objects cause ok => ok = true → ∀ id ∈ s.bulkIds objects cause,
      ∀ row ∈ s.rows.row id, row.status ≠ .failure → row.quota = 0
  | _ => True

instance (env : Env) (s : System) (e : Event) : Decidable (RefundSafe env s e) := by
  cases e <;> unfold RefundSafe <;> infer_instance

variable {s : System} {j k : Nat} {a b task : Task}

theorem Refunded.congr (h : Refunded s j a) (hsame : SameTask a b) : Refunded s j b := by
  obtain ⟨entry, hmem, hobject, hact, hid, hops⟩ := h
  exact ⟨entry, hmem, hobject, hact, hid.trans hsame.id, hsame.refund ▸ hops⟩

theorem Answered.congr (h : Answered s j a) (hsame : SameTask a b) : Answered s j b := by
  rcases h with hdone | ⟨o, ho, hpending, htask⟩
  · exact .inl (hdone.congr hsame)
  · exact .inr ⟨o, ho, hpending, htask.trans hsame⟩

theorem Refunded.mono {s' : System} (h : Refunded s j task)
    (hlog : ∀ entry ∈ s.log, entry ∈ s'.log) : Refunded s' j task := by
  obtain ⟨entry, hmem, hrest⟩ := h
  exact ⟨entry, hlog entry hmem, hrest⟩

theorem Answered.update {s' : System} {o o' : TaskObject} (h : Answered s k task)
    (hlog : ∀ entry ∈ s.log, entry ∈ s'.log)
    (hobjects : s'.objects = Function.update s.objects j (some o')) (ho : s.objects j = some o)
    (hself : o.pending = some .refund → SameTask o.task task → Answered s' j task) :
    Answered s' k task := by
  rcases h with hdone | ⟨p, hp, hpending, hsame⟩
  · exact .inl (hdone.mono hlog)
  by_cases hkj : k = j
  · subst hkj
    rw [ho, Option.some.injEq] at hp
    subst hp
    exact hself hpending hsame
  · refine .inr ⟨p, ?_, hpending, hsame⟩
    rw [hobjects, Function.update_of_ne hkj, hp]

theorem Answered.visit {o : TaskObject} (h : Answered s j task) (ho : s.objects k = some o)
    (hready : o.ready = true) (v : Visit) (ok : Bool) : Answered (s.visit k o v ok) j task := by
  refine h.update (fun _ hmem => hmem) rfl ho ?_
  intro hpending
  rw [(ready_iff.mp hready).1] at hpending
  contradiction

theorem Answered.load (h : Answered s j task) (hk : s.objects k = none) (o : TaskObject) :
    Answered (s.setObject k o) j task := by
  rcases h with hdone | ⟨p, hp, hdue⟩
  · exact .inl hdone
  have hjk : j ≠ k := by
    rintro rfl
    rw [hk] at hp
    contradiction
  exact .inr ⟨p, by simp [setObject, Function.update_of_ne hjk, hp], hdue⟩

theorem Answered.step {env : Env} {e : Event} (h : Answered s j task) (hquota : task.quota ≠ 0)
    (hsafe : RefundSafe env s e) : Answered (step env s e) j task := by
  have htrans := step_transition env s e
  generalize NewApi.Tasks.step env s e = s' at htrans ⊢
  cases htrans with
  | loadUnfinished k id row hk | loadByTaskId k id row hk => exact h.load hk _
  | loadTimedOut k id cutoff row hk => exact h.load hk _
  | poll k now response ok o ho hcan =>
    simp only [canPoll, Bool.and_eq_true] at hcan
    exact h.visit ho hcan.1.1.1 _ ok
  | sweep k now reason ok o ho hcan =>
    simp only [canSweep, Bool.and_eq_true] at hcan
    exact h.visit ho hcan.1.1 _ ok
  | realtime k channelType fetched ok o ho hcan =>
    simp only [canFetch, Bool.and_eq_true] at hcan
    exact h.visit ho hcan.1.1 _ ok
  | bill k answers inputs o act ho hact =>
    refine h.update (fun _ hmem => List.mem_cons_of_mem _ hmem) rfl ho ?_
    intro hpending hsame
    rw [hpending, Option.some.injEq] at hact
    subst hact
    refine .inl ⟨_, List.mem_cons_self, rfl, rfl, hsame.id, ?_⟩
    rw [← hsame.refund]
    exact refundOp_mem_refundTaskQuota (hsame.quota ▸ hquota) hsafe
  | sunoVisit k item answers o ho hcan =>
    refine h.update ?_ rfl ho ?_
    · exact fun entry hmem => mem_sunoVisit_log hmem
    · intro hpending
      simp only [canSuno, Bool.and_eq_true] at hcan
      rw [(ready_iff.mp hcan.1.1).1] at hpending
      contradiction
  | sunoSave k ok o ho =>
    refine h.update (fun _ hmem => hmem) rfl ho ?_
    intro hpending hsame
    exact .inr ⟨{ o with dirty := false }, by simp [sunoSave], hpending, hsame⟩
  | _ => exact h

structure RefundInv (s : System) : Prop where
  rows : ∀ id row, s.rows.row id = some row → row.status = .failure → row.quota ≠ 0 →
    ∃ j, Answered s j row
  fresh : ∀ j o, s.objects j = some o → o.visits = 0 →
    o.pending = none ∧ (o.task.status = .failure → o.task.quota ≠ 0 → ∃ k, Answered s k o.task)
  -- a Suno visit refunds before its task is saved
  dirty : ∀ j o, s.objects j = some o → o.dirty = true →
    o.pending = none ∧ (o.task.status = .failure → o.task.quota ≠ 0 → Refunded s j o.task)

theorem refundInv_init : RefundInv (.init .empty) where
  rows := by simp [init, TaskTable.empty]
  fresh := by simp [init]
  dirty := by simp [init]

/--
What a step by `object` may do: a failed row was there before it, is answered by
`object`, or had failed before; an object was there before it or keeps the invariant.
-/
structure RefundStep (s s' : System) (object : Option Nat) : Prop where
  rows : ∀ id row', s'.rows.row id = some row' → row'.status = .failure → row'.quota ≠ 0 →
    s.rows.row id = some row' ∨ (∃ k, object = some k ∧ Answered s' k row') ∨
      (∃ row, s.rows.row id = some row ∧ row.status = .failure) ∧ ∃ k, Answered s' k row'
  objects : ∀ k p, s'.objects k = some p → s.objects k = some p ∨
    (p.visits = 0 → p.pending = none ∧ (p.task.status = .failure → p.task.quota ≠ 0 →
      ∃ l, Answered s' l p.task)) ∧
    (p.dirty = true → p.pending = none ∧ (p.task.status = .failure → p.task.quota ≠ 0 →
      Refunded s' k p.task))
  log : ∀ entry ∈ s.log, entry ∈ s'.log

variable {s s' : System} {j k : Nat} {o : TaskObject} {object : Option Nat}

section Kept

variable (h : RefundInv s)
  (hkeep : ∀ k task, task.quota ≠ 0 → Answered s k task → Answered s' k task)

include h hkeep

theorem RefundInv.fresh_kept {p : TaskObject} (hp : s.objects k = some p) (hvisits : p.visits = 0) :
    p.pending = none ∧ (p.task.status = .failure → p.task.quota ≠ 0 →
      ∃ l, Answered s' l p.task) := by
  obtain ⟨hpending, hfresh⟩ := h.fresh k p hp hvisits
  refine ⟨hpending, fun hfail hquota => ?_⟩
  obtain ⟨l, hl⟩ := hfresh hfail hquota
  exact ⟨l, hkeep l p.task hquota hl⟩

theorem RefundStep.keeps (hstep : RefundStep s s' object) : RefundInv s' ∧
    ∀ id row row', s.rows.row id = some row → row.status ≠ .failure →
      s'.rows.row id = some row' → row'.status = .failure → row'.quota ≠ 0 →
      ∃ j, object = some j ∧ Answered s' j row' := by
  refine ⟨⟨?_, ?_, ?_⟩, ?_⟩
  · intro id row hrow hfail hquota
    rcases hstep.rows id row hrow hfail hquota with hold | ⟨k, -, hk⟩ | ⟨-, hk⟩
    · obtain ⟨k, hk⟩ := h.rows id row hold hfail hquota
      exact ⟨k, hkeep k row hquota hk⟩
    · exact ⟨k, hk⟩
    · exact hk
  · intro k p hp hvisits
    rcases hstep.objects k p hp with hold | ⟨hfresh, -⟩
    · exact h.fresh_kept hkeep hold hvisits
    · exact hfresh hvisits
  · intro k p hp hdirty
    rcases hstep.objects k p hp with hold | ⟨-, hsaved⟩
    · obtain ⟨hpending, hlogged⟩ := h.dirty k p hold hdirty
      exact ⟨hpending, fun hfail hquota => (hlogged hfail hquota).mono hstep.log⟩
    · exact hsaved hdirty
  · intro id row row' hrow hopen hrow' hfail hquota
    rcases hstep.rows id row' hrow' hfail hquota with hold | hown | ⟨⟨found, hfound, hbefore⟩, -⟩
    · rw [hrow, Option.some.injEq] at hold
      exact absurd (hold ▸ hfail) hopen
    · exact hown
    · rw [hrow, Option.some.injEq] at hfound
      exact absurd (hfound ▸ hbefore) hopen

end Kept

/--
A visit that wins its update with `FAILURE` either owes the refund itself or
writes over a failed row whose refund is already answered.
-/
theorem RefundStep.visit {v : Visit} (ok : Bool) (ho : s.objects j = some o)
    (hready : o.ready = true) (hframe : VisitFrame o.task v)
    (hfail : (s.cas v ok).2 = true → v.task.status = .failure → o.task.quota ≠ 0 →
      v.act = some .refund ∨ o.task.status = .failure ∧ ∃ k, Answered s k o.task) :
    RefundStep s (s.visit j o v ok) (some j) where
  rows := by
    intro id row' hrow' hstatus hquota
    rcases visit_rows (j := j) hframe ok with ⟨hwon, -, ⟨found, hfound, hfrom⟩, hput⟩ | ⟨-, hsame⟩
    · rw [hput] at hrow'
      rcases TaskTable.put_row_cases hrow' with rfl | ⟨-, hold⟩
      · rcases hfail hwon hstatus (hframe.same.quota ▸ hquota) with hact | ⟨hloaded, k, hk⟩
        · refine .inr (.inl ⟨j, rfl, .inr ⟨_, Function.update_self .., ?_, .refl v.task⟩⟩)
          simp [hwon, hact]
        -- the update was guarded by the loaded status, so the row had failed before
        have hid : o.task.id = id := by
          rw [← hframe.same.id]
          exact (s.rows.put v.task).keyed hrow'
        refine .inr (.inr ⟨⟨found, hid ▸ hfound, hfrom.trans hloaded⟩, k, ?_⟩)
        exact (hk.visit ho hready v ok).congr hframe.same.symm
      · exact .inl hold
    · rw [hsame] at hrow'
      exact .inl hrow'
  objects := by
    refine forall_update_some (.inr ⟨?_, ?_⟩) fun k p _ hp => .inl hp
    · intro hvisits
      simp at hvisits
    · intro hdirty
      rw [(ready_iff.mp hready).2] at hdirty
      contradiction
  log := fun _ hmem => hmem

section

variable (h : RefundInv s)
include h

theorem RefundInv.load {id : Int} {row : Task} (hj : s.objects j = none)
    (hrow : s.rows.row id = some row) (role : Role) :
    RefundStep s (s.setObject j ⟨role, row, 0, none, false⟩) object where
  rows := fun _ _ hrow' _ _ => .inl hrow'
  objects := by
    refine forall_update_some (.inr ⟨fun _ => ⟨rfl, fun hfail hquota => ?_⟩, ?_⟩)
      fun k p _ hp => .inl hp
    · obtain ⟨k, hk⟩ := h.rows id row hrow hfail hquota
      exact ⟨k, hk.load hj _⟩
    · intro hdirty
      simp at hdirty
  log := fun _ hmem => hmem

variable {answers : QuotaAnswers} {ok : Bool}

theorem RefundInv.bill {inputs : SettleInputs} {act : BillingAct} (ho : s.objects j = some o)
    (hact : o.pending = some act) : RefundStep s (s.bill j o act answers inputs) object where
  rows := fun _ _ hrow _ _ => .inl hrow
  objects := by
    have hbusy : o.pending ≠ none := by simp [hact]
    refine forall_update_some (.inr ⟨?_, ?_⟩) fun k p _ hp => .inl hp
    · exact fun hvisits => absurd (h.fresh j o ho hvisits).1 hbusy
    · exact fun hdirty => absurd (h.dirty j o ho hdirty).1 hbusy
  log := fun _ hmem => List.mem_cons_of_mem _ hmem

omit h in
theorem RefundStep.sunoVisit {item : SunoDataResponse} (hready : o.ready = true)
    (hok : answers.fundingOk = true) : RefundStep s (s.sunoVisit j o item answers) object where
  rows := fun _ _ hrow _ _ => .inl hrow
  objects := by
    refine forall_update_some (.inr ⟨?_, ?_⟩) fun k p _ hp => .inl hp
    · intro hvisits
      simp at hvisits
    · intro _
      refine ⟨(ready_iff.mp hready).1, ?_⟩
      intro hfail hquota
      have hrefunds := sunoRefunds_of_failure hfail
      obtain ⟨hsame, -, -⟩ := sunoUpdated_spec o.task item
      refine ⟨sunoEntry j o item answers, ?_, rfl, rfl, hsame.id.symm, ?_⟩
      · simp [System.sunoVisit, hrefunds]
      · rw [hsame.refund]
        exact refundOp_mem_refundTaskQuota (hsame.quota ▸ hquota) hok
  log := fun _ hmem => mem_sunoVisit_log hmem

theorem RefundInv.sunoSave (ho : s.objects j = some o) (hdirty : o.dirty = true)
    (hkeep : ∀ k task, task.quota ≠ 0 → Answered s k task → Answered (s.sunoSave j o ok) k task) :
    RefundStep s (s.sunoSave j o ok) (some j) where
  rows := by
    intro id row hrow hfail hquota
    simp only [System.sunoSave, update] at hrow
    split at hrow
    · rcases TaskTable.put_row_cases hrow with rfl | ⟨-, hold⟩
      · exact .inr (.inl ⟨j, rfl, .inl ((h.dirty j o ho hdirty).2 hfail hquota)⟩)
      · exact .inl hold
    · exact .inl hrow
  objects := by
    have hsaved := fun hvisits => h.fresh_kept hkeep ho hvisits
    refine forall_update_some (.inr ⟨hsaved, ?_⟩) fun k p _ hp => .inl hp
    intro hcontra
    simp at hcontra
  log := fun _ hmem => hmem

theorem RefundInv.bulkFail {ids : List Int} {failReason : Option String}
    (hsafe : ok = true → ∀ id ∈ ids, ∀ row, s.rows.row id = some row →
      row.status ≠ .failure → row.quota = 0) :
    RefundStep s { s with rows := taskBulkUpdateByID s.rows ids failReason ok } object where
  rows := by
    intro id row' hrow' hfail hquota
    rcases taskBulkUpdateByID_row hrow' with hold | ⟨row, hok, hmem, hrow, rfl⟩
    · exact .inl hold
    have hfailed : row.status = .failure := by
      by_contra hopen
      exact hquota (hsafe hok id hmem row hrow hopen)
    obtain ⟨k, hk⟩ := h.rows id row hrow hfailed hquota
    have hk' := hk.congr (b := row.bulkFailed failReason) ⟨rfl, rfl, rfl, rfl⟩
    exact .inr (.inr ⟨⟨row, hrow, hfailed⟩, k, hk'⟩)
  objects := fun _ _ hp => .inl hp
  log := fun _ hmem => hmem

end

theorem refundInv_step {env : Env} {e : Event} (h : RefundInv s) (hsafe : RefundSafe env s e) :
    RefundInv (step env s e) ∧ FailureAnswered env s e := by
  have hkeep : ∀ k task, task.quota ≠ 0 → Answered s k task →
      Answered (step env s e) k task := fun k task hquota hk => hk.step hquota hsafe
  have htrans := step_transition env s e
  unfold FailureAnswered
  generalize step env s e = s' at htrans hkeep ⊢
  refine RefundStep.keeps h hkeep ?_
  cases htrans with
  | idle => exact ⟨fun _ _ hrow _ _ => .inl hrow, fun _ _ hp => .inl hp, fun _ hmem => hmem⟩
  | insert =>
    refine ⟨fun id row hrow hfail _ => ?_, fun _ _ hp => .inl hp, fun _ hmem => hmem⟩
    rcases TaskTable.put_row_cases hrow with rfl | ⟨-, hold⟩
    · simp [initTask] at hfail
    · exact .inl hold
  | loadUnfinished j id row hj hrow | loadByTaskId j id row hj hrow => exact h.load hj hrow _
  | loadTimedOut j id cutoff row hj hrow => exact h.load hj hrow _
  | poll j now response ok o ho hcan =>
    simp only [canPoll, Bool.and_eq_true] at hcan
    obtain ⟨hspec, hrefund⟩ := updateVideoSingleTask_spec env now o.task response
    refine .visit ok ho hcan.1.1.1 hspec.toVisitFrame ?_
    exact fun hwon hfail hquota => .inl (hrefund (cas_isSome hwon) hfail hquota)
  | sweep j now reason ok o ho hcan =>
    simp only [canSweep, Bool.and_eq_true] at hcan
    refine .visit ok ho hcan.1.1 (sweepTimedOutTask_frame now reason o.task) ?_
    intro _ _ hquota
    exact .inl (by simp [sweepTimedOutTask, hsafe o ho, hquota])
  | realtime j channelType fetched ok o ho hcan =>
    simp only [canFetch, Bool.and_eq_true, decide_eq_true_eq] at hcan
    obtain ⟨hspec, -⟩ := tryRealtimeFetch_spec env o.task channelType fetched
    refine .visit ok ho hcan.1.1 hspec.toVisitFrame fun hwon hfail hquota => ?_
    have hloaded : o.task.status = .failure := by
      by_contra hopen
      rw [hsafe o ho hquota hopen hfail] at hwon
      contradiction
    exact .inr ⟨hloaded, (h.fresh j o ho hcan.2).2 hloaded hquota⟩
  | bill j answers inputs o act ho hact => exact h.bill ho hact
  | sunoVisit j item answers o ho hcan =>
    simp only [canSuno, Bool.and_eq_true] at hcan
    exact .sunoVisit hcan.1.1 hsafe
  | sunoSave j ok o ho hdirty => exact h.sunoSave ho hdirty hkeep
  | bulkFail => exact h.bulkFail hsafe

/--
Along every run that meets `RefundSafe`, a step that moves a charged task into
`FAILURE` is answered with the refund of its whole quota by the same process,
and every failed row that carries a charge has been refunded or is about to be.
-/
theorem failed_tasks_refunded (env : Env) (events : List Event)
    (h : Admits (step env) (RefundSafe env) (.init .empty) events) :
    Admits (step env) (FailureAnswered env) (.init .empty) events ∧
    ∀ id row, (run (step env) (.init .empty) events).rows.row id = some row →
      row.status = .failure → row.quota ≠ 0 →
      ∃ j, Answered (run (step env) (.init .empty) events) j row := by
  refine ⟨Admits.steps RefundInv (fun s e hs he => refundInv_step hs he) refundInv_init h, ?_⟩
  exact (Admits.invariant RefundInv (fun s e hs he => (refundInv_step hs he).1)
    refundInv_init h).rows

def refundedRun : List Event :=
  [.insert (plainTask (.other "video") 500), .insert { plainTask .suno 300 with id := 2 },
    .loadTimedOut 0 1 1900000000, .loadUnfinished 1 2,
    .sweep 0 1850000000 "timeout" true, .bill 0 allOk noSettlement,
    .sunoVisit 1 (plainItem "FAILURE" "") allOk, .sunoSave 1 true]

theorem failed_tasks_refunded_run :
    (run (step plainEnv) (.init .empty) refundedRun).log.length = 2 ∧
    Admits (step plainEnv) (FailureAnswered plainEnv) (.init .empty) refundedRun ∧
    ∀ id row, (run (step plainEnv) (.init .empty) refundedRun).rows.row id = some row →
      row.status = .failure → row.quota ≠ 0 →
      ∃ j, Answered (run (step plainEnv) (.init .empty) refundedRun) j row :=
  ⟨by decide, failed_tasks_refunded plainEnv refundedRun (by decide)⟩

/-- Row 1 has failed with a charge, leaves every polling query, and is not refunded. -/
def LeftUnrefunded (s : System) : Prop :=
  ∃ row, s.rows.row 1 = some row ∧ row.status = .failure ∧ row.quota ≠ 0 ∧
    getAllUnFinishSyncTasks row = false ∧ ∀ j, ¬ Answered s j row

theorem not_answered_of_idle (hlog : s.log = [])
    (hidle : ∀ j o, s.objects j = some o → o.pending = none) (j : Nat) (task : Task) :
    ¬ Answered s j task := by
  rintro (⟨entry, hmem, -⟩ | ⟨o, ho, hpending, -⟩)
  · rw [hlog] at hmem
    simp at hmem
  · rw [hidle j o ho] at hpending
    contradiction

def missingChannelRun : List Event :=
  [.insert (plainTask (.other "video") 500), .loadUnfinished 0 1,
    .bulkFail [0] (.videoChannel 3) true]

def failedQueryRun : List Event :=
  [.insert (plainTask (.other "video") 500), .loadByTaskId 0 1,
    .realtime 0 channelTypeGemini (some (plainInfo "FAILURE")) true]

theorem failures_left_unrefunded :
    LeftUnrefunded (run (step plainEnv) (.init .empty) missingChannelRun) ∧
    LeftUnrefunded (run (step plainEnv) (.init .empty) failedQueryRun) := by
  have hnone : ∀ (k : Nat) (o : TaskObject), k ≠ 0 → none = some o → o.pending = none := by
    simp
  constructor
  · refine ⟨_, rfl, by decide, by decide, by decide, fun j => ?_⟩
    refine not_answered_of_idle rfl ?_ j _
    exact forall_update_some rfl hnone
  · refine ⟨_, rfl, by decide, by decide, by decide, fun j => ?_⟩
    refine not_answered_of_idle rfl ?_ j _
    refine forall_update_some rfl fun k o hk ho => ?_
    exact forall_update_some (P := fun _ o => o.pending = none) rfl hnone k o ho

end NewApi.Tasks
