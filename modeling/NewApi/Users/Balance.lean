import NewApi.Foundation.Decimal
import NewApi.Foundation.Run

/-!
# The quota of a user

`model/user.go` changes the column `quota` in two ways.  `IncreaseUserQuota` and
`DecreaseUserQuota` add to the stored value in one statement.  `inviteUser`,
`TransferAffQuotaToQuota` and `User.Update` read the user and later write the
struct back, and nothing keeps other requests from writing in between.
-/

namespace NewApi.Users

open Foundation

/-- The columns that these functions compute with.  `setting` stands for the
columns a caller of `User.Update` changes. -/
structure UserRow where
  quota : Int
  affCount : Int
  affQuota : Int
  affHistoryQuota : Int
  setting : String

structure AffSettings where
  quotaPerUnit : ℚ
  quotaForInviter : Int
  formatQuota : Int → String

inductive BalanceError where
  | negativeQuota
  | transferTooSmall (minimum : String)
  | affQuotaInsufficient
  deriving DecidableEq

def checkQuota (quota : Int) : Except BalanceError Unit :=
  if quota < 0 then .error .negativeQuota else .ok ()

inductive RowTask where
  | inviteUser
  | transferAffQuotaToQuota (quota : Int)
  | update (setting : String)

namespace RowTask

def check (cfg : AffSettings) (task : RowTask) (row : UserRow) : Except BalanceError Unit :=
  match task with
  | .transferAffQuotaToQuota quota =>
    if (quota : ℚ) < cfg.quotaPerUnit then
      .error (.transferTooSmall (cfg.formatQuota (truncate cfg.quotaPerUnit)))
    else if row.affQuota < quota then .error .affQuotaInsufficient
    else .ok ()
  | _ => .ok ()

/-- The row after the write, from the copy and the row as it is by then.  `Save`
writes every column; `Updates` with a struct skips the fields that are zero. -/
def write (cfg : AffSettings) (task : RowTask) (copy row : UserRow) : UserRow :=
  match task with
  | .inviteUser =>
    { copy with
      affCount := copy.affCount + 1
      affQuota := copy.affQuota + cfg.quotaForInviter
      affHistoryQuota := copy.affHistoryQuota + cfg.quotaForInviter }
  | .transferAffQuotaToQuota quota =>
    { copy with affQuota := copy.affQuota - quota, quota := copy.quota + quota }
  | .update setting =>
    { quota := if copy.quota = 0 then row.quota else copy.quota
      affCount := if copy.affCount = 0 then row.affCount else copy.affCount
      affQuota := if copy.affQuota = 0 then row.affQuota else copy.affQuota
      affHistoryQuota :=
        if copy.affHistoryQuota = 0 then row.affHistoryQuota else copy.affHistoryQuota
      setting := if setting = "" then row.setting else setting }

def amount : RowTask → Int
  | .transferAffQuotaToQuota quota => quota
  | _ => 0

def WritesQuota (task : RowTask) (copy : UserRow) : Prop :=
  match task with
  | .update _ => copy.quota ≠ 0
  | _ => True

instance (task : RowTask) (copy : UserRow) : Decidable (task.WritesQuota copy) := by
  unfold WritesQuota
  split <;> infer_instance

private theorem write_quota (cfg : AffSettings) (task : RowTask) (copy row : UserRow) :
    (task.write cfg copy row).quota =
      (if task.WritesQuota copy then copy.quota else row.quota) + task.amount := by
  cases task with
  | update =>
    by_cases h : copy.quota = 0 <;> simp [write, amount, WritesQuota, h]
  | _ => simp [write, amount, WritesQuota]

end RowTask

/-- The stored row, the copies that are held, and the amounts of the calls that
have succeeded. -/
structure Balance where
  row : UserRow
  held : Nat → Option (RowTask × UserRow)
  moved : List Int

open Balance

inductive BalanceEvent where
  | increaseUserQuota (quota : Int) (ok : Bool)
  | decreaseUserQuota (quota : Int) (ok : Bool)
  | read (task : Nat) (kind : RowTask)
  | write (task : Nat) (ok : Bool)

namespace Balance

def start (row : UserRow) : Balance := { row := row, held := fun _ => none, moved := [] }

def addQuota (s : Balance) (n : Int) : Balance :=
  { s with row := { s.row with quota := s.row.quota + n }, moved := n :: s.moved }

def writing (s : Balance) : BalanceEvent → Option (RowTask × UserRow)
  | .write task true => s.held task
  | _ => none

def step (cfg : AffSettings) (s : Balance) (e : BalanceEvent) : Balance :=
  match e with
  | .increaseUserQuota quota ok =>
    match checkQuota quota, ok with
    | .ok (), true => s.addQuota quota
    | _, _ => s
  | .decreaseUserQuota quota ok =>
    match checkQuota quota, ok with
    | .ok (), true => s.addQuota (-quota)
    | _, _ => s
  | .read task kind =>
    match s.held task, kind.check cfg s.row with
    | none, .ok () => { s with held := Function.update s.held task (some (kind, s.row)) }
    | _, _ => s
  | .write task _ =>
    let closed := { s with held := Function.update s.held task none }
    match s.writing e with
    | none => closed
    | some (kind, copy) =>
      { closed with
        row := kind.write cfg copy s.row
        moved := if kind.amount = 0 then s.moved else kind.amount :: s.moved }

/-- The quota is the initial one plus what the successful calls have moved. -/
def NothingLost (initial : Int) (s : Balance) : Prop := s.row.quota = initial + s.moved.sum

instance (initial : Int) (s : Balance) : Decidable (s.NothingLost initial) := by
  unfold NothingLost
  infer_instance

/-- A copy that is written with its quota has the quota the row still has. -/
def Fresh (s : Balance) (e : BalanceEvent) : Prop :=
  ∀ w ∈ s.writing e, w.1.WritesQuota w.2 → s.row.quota = w.2.quota

variable {cfg : AffSettings} {s : Balance} {e : BalanceEvent} {initial : Int}

theorem step_cases (cfg : AffSettings) (s : Balance) (e : BalanceEvent) :
    (s.writing e = none ∧ ∃ n, (step cfg s e).row.quota = s.row.quota + n ∧
      (step cfg s e).moved.sum = s.moved.sum + n) ∨
    (∃ kind copy, s.writing e = some (kind, copy) ∧
      (step cfg s e).row = kind.write cfg copy s.row ∧
      (step cfg s e).moved.sum = s.moved.sum + kind.amount) := by
  cases e with
  | increaseUserQuota quota =>
    refine .inl ⟨rfl, ?_⟩
    simp only [step]
    split
    · exact ⟨quota, rfl, by simp [addQuota, add_comm]⟩
    · exact ⟨0, by simp, by simp⟩
  | decreaseUserQuota quota =>
    refine .inl ⟨rfl, ?_⟩
    simp only [step]
    split
    · exact ⟨-quota, rfl, by simp [addQuota, add_comm]⟩
    · exact ⟨0, by simp, by simp⟩
  | read =>
    refine .inl ⟨rfl, 0, ?_⟩
    simp only [step]
    split <;> simp
  | write task ok =>
    cases hw : s.writing (.write task ok) with
    | none => exact .inl ⟨rfl, 0, by simp [step, hw]⟩
    | some w =>
      obtain ⟨kind, copy⟩ := w
      refine .inr ⟨kind, copy, rfl, by simp [step, hw], ?_⟩
      simp only [step, hw]
      split
      next h => simp [h]
      next => simp [add_comm]

theorem nothingLost_step_iff (h : s.NothingLost initial) :
    (step cfg s e).NothingLost initial ↔ s.Fresh e := by
  unfold NothingLost Fresh at *
  rcases step_cases cfg s e with ⟨hw, n, hquota, hmoved⟩ | ⟨kind, copy, hw, hrow, hmoved⟩
  · simp only [hw, hquota, hmoved, Option.mem_def, reduceCtorEq, false_implies, implies_true,
      iff_true]
    omega
  have hquota := congrArg UserRow.quota hrow
  rw [RowTask.write_quota] at hquota
  simp only [hw, Option.mem_def, Option.some.injEq, forall_eq', hquota, hmoved]
  by_cases hwrites : kind.WritesQuota copy
  · simp only [hwrites, if_true, true_implies]
    omega
  · simp only [hwrites, if_false, false_implies, iff_true]
    omega

end Balance

/--
No change of the quota is lost throughout a run exactly when every call that
writes the quota of its copy back finds that quota still stored.
-/
theorem userQuota_nothing_lost_iff (cfg : AffSettings) (row : UserRow)
    (events : List BalanceEvent) :
    (∀ before after, events = before ++ after →
      (run (step cfg) (start row) before).NothingLost row.quota) ↔
      Admits (step cfg) Balance.Fresh (start row) events := by
  have hany : Admits (step cfg) (fun _ _ => True) (start row) events :=
    admits_of_forall (fun _ _ => trivial) _ events
  refine forall_prefix_iff_admits (fun s hs => hs) ?_ ?_ ?_ hany
  · intro s e hs _ hfresh
    exact (nothingLost_step_iff hs).mpr hfresh
  · intro s e hs _ hlaw
    exact (nothingLost_step_iff hs).mp hlaw
  · simp [Balance.NothingLost, start]

def plainAffSettings : AffSettings :=
  { quotaPerUnit := 500000, quotaForInviter := 1000, formatQuota := fun _ => "＄1.00" }

def plainUser : UserRow :=
  { quota := 100, affCount := 0, affQuota := 0, affHistoryQuota := 0, setting := "" }

/-- The inviter spends 60 between the read and the write of `inviteUser`; a
settings change does the same to an increment. -/
theorem userQuota_lost_counterexample :
    ¬ (run (step plainAffSettings) (start plainUser)
        [.read 0 .inviteUser, .decreaseUserQuota 60 true, .write 0 true]).NothingLost 100 ∧
    ¬ (run (step plainAffSettings) (start plainUser)
        [.read 0 (.update "dark"), .increaseUserQuota 60 true, .write 0 true]).NothingLost 100 := by
  decide +kernel

end NewApi.Users
