import NewApi.Tasks.Transition

/-!
# Polling bills a task at most once

Pollers and sweepers on any number of nodes race for the same rows.  The only
guard is the status of the row: a billing action is enabled by winning the
conditional update that moves the row from the loaded, open status into a
terminal one.  No poller or sweeper moves it out again, so there is one winner.
-/

namespace NewApi.Tasks

open Foundation

/--
The steps of `updateVideoSingleTask` and `sweepTimedOutTasks`: inserting and
loading rows, one poll of an object that was not polled before, a sweep, and
the billing action they enable.
-/
def pollerStep (s : System) : Event → Bool
  | .insert _ | .loadUnfinished .. | .loadTimedOut .. | .sweep .. | .bill .. => true
  | .poll j .. =>
    match s.objects j with
    | some o => o.visits == 0
    | none => true
  | _ => false

def DoneRow (s : System) (id : Int) : Prop :=
  ∃ row, s.rows.row id = some row ∧ row.status.isDone = true

def MovesIntoDone (env : Env) (j : Nat) (id : Int) (s : System) (e : Event) : Prop :=
  e.object = some j ∧
    (∃ row, s.rows.row id = some row ∧ row.status.isDone = false) ∧
    DoneRow (step env s e) id

/-- `won j id` says that object `j` moved row `id` into a terminal status. -/
structure OnceInv (won : Nat → Int → Prop) (s : System) : Prop where
  fresh : ∀ j o, s.objects j = some o → o.visits = 0 →
    o.task.status.isDone = false ∧ o.pending = none
  owes : ∀ j id, Owes s j id → DoneRow s id ∧ won j id ∧ ∀ entry ∈ s.log, entry.task.id ≠ id
  unique : ∀ j k id, Owes s j id → Owes s k id → j = k
  logged : ∀ entry ∈ s.log, DoneRow s entry.task.id ∧ won entry.object entry.task.id
  nodup : (s.log.map (·.task.id)).Nodup

theorem onceInv_init (won : Nat → Int → Prop) (rows : TaskTable) : OnceInv won (.init rows) where
  fresh := by simp [System.init]
  owes := by simp [System.init, Owes]
  unique := by simp [System.init, Owes]
  logged := by simp [System.init]
  nodup := by simp [System.init]

variable {won won' : Nat → Int → Prop} {s s' : System}

theorem OnceInv.frame (h : OnceInv won s) (himp : ∀ j id, won j id → won' j id)
    (hfresh : ∀ j o, s'.objects j = some o → o.visits = 0 →
      o.task.status.isDone = false ∧ o.pending = none) (howes : ∀ j id, Owes s' j id → Owes s j id)
    (hdone : ∀ id, DoneRow s id → DoneRow s' id) (hlog : s'.log = s.log) :
    OnceInv won' s' where
  fresh := hfresh
  owes := by
    intro j id hj
    obtain ⟨hrow, hwon, hentries⟩ := h.owes j id (howes j id hj)
    rw [hlog]
    exact ⟨hdone id hrow, himp j id hwon, hentries⟩
  unique := fun j k id hj hk => h.unique j k id (howes j id hj) (howes k id hk)
  logged := by
    rw [hlog]
    intro entry hentry
    obtain ⟨hrow, hwon⟩ := h.logged entry hentry
    exact ⟨hdone _ hrow, himp _ _ hwon⟩
  nodup := by
    rw [hlog]
    exact h.nodup

theorem OnceInv.mono (h : OnceInv won s) (himp : ∀ j id, won j id → won' j id) : OnceInv won' s :=
  h.frame himp h.fresh (fun _ _ howes => howes) (fun _ hdone => hdone) rfl

section Keep

variable {j : Nat} {o : TaskObject} (h : OnceInv won s)
include h

theorem OnceInv.insert {task : Task} (hfree : s.rows.row task.id = none) :
    OnceInv won { s with rows := s.rows.put (initTask task) } := by
  refine h.frame (fun _ _ hwon => hwon) h.fresh (fun _ _ howes => howes) ?_ rfl
  rintro id ⟨row, hrow, hstatus⟩
  have hne : id ≠ task.id := by
    rintro rfl
    rw [hfree] at hrow
    contradiction
  exact ⟨row, by rw [TaskTable.put_row_ne _ _ (by exact hne), hrow], hstatus⟩

theorem OnceInv.load {role : Role} {row : Task} (hopen : row.unfinished = true) :
    OnceInv won (s.setObject j ⟨role, row, 0, none, false⟩) := by
  refine h.frame (fun _ _ hwon => hwon) ?_ ?_ (fun _ hdone => hdone) rfl
  · refine forall_update_some ?_ fun k o _ ho => h.fresh k o ho
    intro _
    simp only [Task.unfinished, Bool.and_eq_true, Bool.not_eq_true'] at hopen
    exact ⟨hopen.2, rfl⟩
  · exact fun k id hk => (owes_of_update_none rfl rfl hk).2

section Visit

variable {v : Visit} {ok : Bool}

theorem OnceInv.visit_fresh :
    ∀ k p, (s.visit j o v ok).objects k = some p → p.visits = 0 →
      p.task.status.isDone = false ∧ p.pending = none := by
  refine forall_update_some ?_ fun k p _ hp => h.fresh k p hp
  intro hvisits
  simp at hvisits

theorem OnceInv.visit_lost (hopen : o.task.status.isDone = false) (hspec : VisitSpec o.task v)
    (hlost : (s.cas v ok).2 = false) (hsame : (s.visit j o v ok).rows = s.rows) :
    OnceInv won (s.visit j o v ok) := by
  refine h.frame (fun _ _ hwon => hwon) h.visit_fresh ?_ ?_ rfl
  · intro k id hk
    rcases (owes_update rfl).mp hk with ⟨-, hpending, -⟩ | ⟨-, hother⟩
    · exfalso
      by_cases hguard : v.guarded = true
      · simp [hguard, hlost] at hpending
      have hact : v.act.isSome = true := by simpa [hguard] using hpending
      obtain ⟨act, hact⟩ := Option.isSome_iff_exists.mp hact
      exact hguard ((hspec.act act hact).2 hopen)
    · exact hother
  · rintro id ⟨row, hrow, hstatus⟩
    exact ⟨row, by rw [hsame, hrow], hstatus⟩

variable (himp : ∀ k id, won k id → won' k id) (hspec : VisitSpec o.task v)
include himp hspec

theorem OnceInv.visit_won {row : Task} (hrow : s.rows.row v.task.id = some row)
    (hrowOpen : row.status.isDone = false) (hwon : (s.cas v ok).2 = true)
    (hput : (s.visit j o v ok).rows = s.rows.put v.task)
    (hnew : DoneRow (s.visit j o v ok) v.task.id → won' j v.task.id) :
    OnceInv won' (s.visit j o v ok) := by
  -- a terminal row is another row, hence untouched
  have hne : ∀ id, DoneRow s id → id ≠ v.task.id := by
    rintro id ⟨row', hrow', hdone⟩ rfl
    rw [hrow, Option.some.injEq] at hrow'
    rw [← hrow', hrowOpen] at hdone
    contradiction
  have hkeep : ∀ id, DoneRow s id → DoneRow (s.visit j o v ok) id := by
    intro id hdone
    have hne' := hne id hdone
    obtain ⟨row', hrow', hstatus'⟩ := hdone
    exact ⟨row', by rw [hput, TaskTable.put_row_ne _ _ hne', hrow'], hstatus'⟩
  have hold : ∀ k id, k ≠ j ∧ Owes s k id → id ≠ v.task.id := fun k id hk =>
    hne id (h.owes k id hk.2).1
  refine ⟨h.visit_fresh, ?_, ?_, ?_, h.nodup⟩
  · intro k id howes
    rcases (owes_update rfl).mp howes with ⟨rfl, hpending, rfl⟩ | ⟨hkj, hother⟩
    · have hact : v.act.isSome = true := by simpa [hwon] using hpending
      obtain ⟨act, hact⟩ := Option.isSome_iff_exists.mp hact
      have hdone : DoneRow (s.visit k o v ok) v.task.id :=
        ⟨v.task, by rw [hput, TaskTable.put_row_self], (hspec.act act hact).1⟩
      refine ⟨hdone, hnew hdone, ?_⟩
      intro entry hentry
      exact hne _ (h.logged entry hentry).1
    · obtain ⟨hdone, hwonk, hlog⟩ := h.owes k id hother
      exact ⟨hkeep id hdone, himp k id hwonk, hlog⟩
  · intro k l id hk hl
    rcases (owes_update rfl).mp hk with ⟨rfl, -, rfl⟩ | hk'
    · rcases (owes_update rfl).mp hl with ⟨rfl, -, -⟩ | hl'
      · rfl
      · exact absurd rfl (hold l _ hl')
    · rcases (owes_update rfl).mp hl with ⟨rfl, -, rfl⟩ | hl'
      · exact absurd rfl (hold k _ hk')
      · exact h.unique k l id hk'.2 hl'.2
  · intro entry hentry
    obtain ⟨hdone, hwonk⟩ := h.logged entry hentry
    exact ⟨hkeep _ hdone, himp _ _ hwonk⟩

theorem OnceInv.visit (hopen : o.task.status.isDone = false)
    (hnew : ∀ id, (∃ row, s.rows.row id = some row ∧ row.status.isDone = false) →
      DoneRow (s.visit j o v ok) id → won' j id) : OnceInv won' (s.visit j o v ok) := by
  rcases visit_rows (j := j) hspec.toVisitFrame ok with
    ⟨hwon, -, ⟨row, hrow, hstatus⟩, hput⟩ | ⟨hlost, hsame⟩
  · rw [← hspec.same.id] at hrow
    rw [← hstatus] at hopen
    exact h.visit_won himp hspec hrow hopen hwon hput (hnew _ ⟨row, hrow, hopen⟩)
  · exact (h.visit_lost hopen hspec hlost hsame).mono himp

end Visit

theorem OnceInv.bill {act : BillingAct} (ho : s.objects j = some o) (hact : o.pending = some act)
    (answers : QuotaAnswers) (inputs : SettleInputs) :
    OnceInv won (s.bill j o act answers inputs) := by
  have howed : Owes s j o.task.id := ⟨o, ho, by simp [hact], rfl⟩
  obtain ⟨hdone, hwon, hlog⟩ := h.owes j o.task.id howed
  have howes : ∀ k id, Owes (s.bill j o act answers inputs) k id → k ≠ j ∧ Owes s k id :=
    fun _ _ hk => owes_of_update_none rfl rfl hk
  refine ⟨?_, ?_, ?_, ?_, ?_⟩
  · refine forall_update_some ?_ fun k p _ hp => h.fresh k p hp
    intro hvisits
    have hfresh := (h.fresh j o ho hvisits).2
    rw [hact] at hfresh
    contradiction
  · intro k id hk
    obtain ⟨hkj, hother⟩ := howes k id hk
    obtain ⟨hdone', hwon', hlog'⟩ := h.owes k id hother
    refine ⟨hdone', hwon', ?_⟩
    intro entry hentry
    rcases List.mem_cons.mp hentry with rfl | hold
    · rintro rfl
      exact hkj (h.unique k j o.task.id hother howed)
    · exact hlog' entry hold
  · intro k l id hk hl
    exact h.unique k l id (howes k id hk).2 (howes l id hl).2
  · intro entry hentry
    rcases List.mem_cons.mp hentry with rfl | hold
    · exact ⟨hdone, hwon⟩
    · exact h.logged entry hold
  · change (o.task.id :: s.log.map (·.task.id)).Nodup
    refine List.nodup_cons.mpr ⟨?_, h.nodup⟩
    intro hmem
    obtain ⟨entry, hentry, hid⟩ := List.mem_map.mp hmem
    exact hlog entry hentry hid

end Keep

theorem onceInv_step (env : Env) {e : Event} (h : OnceInv won s) (hstep : pollerStep s e = true) :
    OnceInv (fun j id => won j id ∨ MovesIntoDone env j id s e) (step env s e) ∧
      KeepsDone env s e := by
  have hleft : ∀ j id, won j id → won j id ∨ MovesIntoDone env j id s e := fun _ _ => .inl
  have hvisit : ∀ j o v ok, s.objects j = some o → e.object = some j →
      o.task.status.isDone = false → VisitSpec o.task v →
      step env s e = s.visit j o v ok →
      OnceInv (fun j id => won j id ∨ MovesIntoDone env j id s e) (step env s e) ∧
        KeepsDone env s e := by
    intro j o v ok ho hobject hopen hspec heq
    rw [KeepsDone, heq]
    refine ⟨h.visit hleft hspec hopen fun id hrow hdone => .inr ⟨hobject, hrow, ?_⟩,
      (visit_keepsDone_iff hspec.toVisitFrame ok).mpr (by simp [hopen])⟩
    rwa [heq]
  have hsame : (step env s e).rows = s.rows → KeepsDone env s e := by
    intro heq
    rw [KeepsDone, heq]
    exact .refl s.rows
  generalize hs' : step env s e = s' at *
  have htrans := step_transition env s e
  rw [hs'] at htrans
  cases htrans with
  | idle => exact ⟨h.mono hleft, hsame rfl⟩
  | insert task hfree =>
    refine ⟨(h.insert hfree).mono hleft, ?_⟩
    rw [KeepsDone, hs']
    exact insert_keepsDone hfree
  | loadUnfinished j id row hj hrow hopen => exact ⟨(h.load hopen).mono hleft, hsame rfl⟩
  | loadTimedOut j id cutoff row hj hrow hopen => exact ⟨(h.load hopen).mono hleft, hsame rfl⟩
  | poll j now response ok o ho =>
    simp only [pollerStep, ho, beq_iff_eq] at hstep
    exact hvisit j o _ ok ho rfl (h.fresh j o ho hstep).1
      (updateVideoSingleTask_spec env now o.task response).1 rfl
  | sweep j now reason ok o ho hcan =>
    simp only [TaskObject.canSweep, Bool.and_eq_true, decide_eq_true_eq] at hcan
    have hopen := (h.fresh j o ho hcan.2).1
    have hspec := sweepTimedOutTask_spec now reason o.task
    rw [hopen] at hspec
    exact hvisit j o _ ok ho rfl hopen (by simpa using hspec) rfl
  | bill j answers inputs o act ho hact =>
    exact ⟨(h.bill ho hact answers inputs).mono hleft, hsame rfl⟩
  | _ => simp [pollerStep] at hstep

private theorem onceInv_run (env : Env) (rows : TaskTable) (events : List Event)
    (h : Admits (step env) (fun s e => pollerStep s e = true) (.init rows) events) :
    OnceInv (fun j id => Happened (step env) (MovesIntoDone env j id) (.init rows) events)
      (run (step env) (.init rows) events) := by
  induction events using List.reverseRecOn with
  | nil => exact onceInv_init _ rows
  | append_singleton events e ih =>
    obtain ⟨hbefore, hlast, -⟩ := (admits_append ..).mp h
    obtain ⟨hinv, -⟩ := onceInv_step env (ih hbefore) hlast
    rw [run_append]
    refine hinv.mono ?_
    rintro j id (hwon | hmoves)
    · exact hwon.snoc e
    · exact happened_last hmoves

/--
For every interleaving in which each in-memory task is polled once: a task is
billed at most once, only the process whose conditional update moved the row
into `SUCCESS` or `FAILURE` bills it, and no step moves a row out of them.
-/
theorem polling_bills_once (env : Env) (rows : TaskTable) (events : List Event)
    (h : Admits (step env) (fun s e => pollerStep s e = true) (.init rows) events) :
    ((run (step env) (.init rows) events).log.map (·.task.id)).Nodup ∧
    (∀ entry ∈ (run (step env) (.init rows) events).log,
      Happened (step env) (MovesIntoDone env entry.object entry.task.id) (.init rows) events) ∧
    Admits (step env) (KeepsDone env) (.init rows) events := by
  have hinv := onceInv_run env rows events h
  refine ⟨hinv.nodup, fun entry hentry => (hinv.logged entry hentry).2, ?_⟩
  refine Admits.steps (OnceInv fun _ _ => True) ?_ (onceInv_init _ rows) h
  intro s e hs he
  obtain ⟨hnext, hkeep⟩ := onceInv_step env hs he
  exact ⟨hnext.mono fun _ _ _ => trivial, hkeep⟩

def pollerSweeperRace : List Event :=
  [.insert (plainTask (.other "video") 500), .loadUnfinished 0 1,
    .loadTimedOut 1 1 1900000000, .poll 0 1850000000 (plainResponse "FAILURE") true,
    .sweep 1 1850000001 "timeout" true, .bill 0 allOk noSettlement,
    .bill 1 allOk noSettlement]

theorem polling_bills_once_race :
    (run (step plainEnv) (.init .empty) pollerSweeperRace).log.length = 1 ∧
    ((run (step plainEnv) (.init .empty) pollerSweeperRace).log.map (·.task.id)).Nodup ∧
    (∀ entry ∈ (run (step plainEnv) (.init .empty) pollerSweeperRace).log,
      Happened (step plainEnv) (MovesIntoDone plainEnv entry.object entry.task.id)
        (.init .empty) pollerSweeperRace) ∧
    Admits (step plainEnv) (KeepsDone plainEnv) (.init .empty) pollerSweeperRace :=
  ⟨by decide, polling_bills_once plainEnv .empty pollerSweeperRace (by decide)⟩

end NewApi.Tasks
