import NewApi.Foundation.LockOrder

/-!
# The locks of the channels

Which locks the calls take and where they touch the status map of a cached channel.
-/

namespace NewApi.Channels

open Foundation Relation

/-- `channelStatusLock`, the polling locks and `channelSyncLock`, of which a writer first
announces itself, which keeps new readers out, and then waits for those that are in. -/
inductive Lock where
  | status
  | polling (id : Int)
  | read
  | intent
  | write

def lockOrder : LockOrder Lock Int where
  Conflicts
    | .status, .status => True
    | .polling id, .polling id' => id = id'
    | .intent, .intent | .intent, .read | .read, .write => True
    | _, _ => False
  held
    | .status => 0
    | .polling _ => 1
    | .intent => 2
    | .read | .write => 3
  wanted
    | .status => 0
    | .polling _ => 1
    | .intent | .read => 2
    | .write => 3
  guard := .polling
  bound := 3
  wanted_le := by rintro (_ | _) <;> simp
  wanted_le_held := by rintro (_ | _) (_ | _) <;> simp

abbrev Program := List (Action Lock Int)

def readsCache : Program := [.acquire .read, .release]

def writesCache : Program := [.acquire .intent, .acquire .write, .release, .release]

def polls (id : Int) (body : Program) : Program := .acquire (.polling id) :: body ++ [.release]

/-- The flags are what the call finds; `memory` is `MemoryCacheEnabled`. -/
inductive Call where
  | getNextEnabledKey (id : Int) (multiKey memory polling : Bool)
  | updateChannelStatus (id : Int) (memory found multiKey changes saves : Bool)
  | manageMultiKeys (id : Int) (multiKey memory saves : Bool)
  | initChannelCache (memory : Bool)
  | getRandomSatisfiedChannel (memory : Bool)
  | isChannelEnabledForGroupModel (memory : Bool)

def Call.program : Call → Program
  | .getNextEnabledKey id multiKey memory polling =>
    if multiKey then
      polls id (.access id ::
        if polling then (if memory then readsCache else []) ++ [.access id] else [])
    else []
  | .updateChannelStatus id memory found multiKey changes saves =>
    -- the last update is of a copy from the database
    let stored := if saves then polls id [] else []
    if memory then
      .acquire .status :: readsCache ++
        (if found then (if multiKey then polls id [.access id] else []) ++
          (if changes then writesCache else []) ++ stored else []) ++ [.release]
    else stored
  | .manageMultiKeys id multiKey memory saves =>
    if multiKey then polls id (if saves && memory then writesCache else []) else []
  | .initChannelCache memory => if memory then writesCache else []
  | .getRandomSatisfiedChannel memory | .isChannelEnabledForGroupModel memory =>
    if memory then readsCache else []

theorem Call.ordered (call : Call) : lockOrder.Ordered [] call.program := by
  cases call <;> simp only [Call.program] <;> repeat' split
  all_goals simp [polls, readsCache, writesCache, LockOrder.Ordered, LockOrder.locksAfter,
    lockOrder]

def start {ι : Type*} (calls : ι → List Call) : ι → Thread Lock Int :=
  fun t => { rest := (calls t).flatMap Call.program }

theorem inv_start {ι : Type*} (calls : ι → List Call) : lockOrder.Inv (start calls) := by
  refine ⟨fun t => ?_, fun _ _ _ _ hlock => nomatch hlock⟩
  change lockOrder.Ordered [] ((calls t).flatMap Call.program)
  induction calls t with
  | nil => rfl
  | cons call calls ih => exact call.ordered.append ih

theorem channel_locks_progress {ι : Type*} [DecidableEq ι] (calls : ι → List Call)
    (s : ι → Thread Lock Int) (h : ReflTransGen lockOrder.Step (start calls) s) :
    (∀ t, (s t).rest ≠ [] → ∃ s', lockOrder.Step s s') ∧
      ∀ t u id rest rest', (s t).rest = .access id :: rest → (s u).rest = .access id :: rest' →
        t = u := by
  have hinv := (inv_start calls).reached h
  exact ⟨fun t => hinv.exists_step, fun t u id rest rest' => hinv.apart rfl⟩

def sameChannel : Bool → List Call := fun _ => [.getNextEnabledKey 1 true false true]

/-- One thread is at the status map of a channel and another waits for its polling lock. -/
theorem channel_locks_progress_polling :
    ∃ s, ReflTransGen lockOrder.Step (start sameChannel) s ∧
      s true = ⟨[.polling 1], [.access 1, .access 1, .release]⟩ ∧
      s false = ⟨[], [.acquire (.polling 1), .access 1, .access 1, .release]⟩ ∧
      (∃ s', lockOrder.Step s s') ∧
      ∀ u rest, (s u).rest = .access 1 :: rest → true = u := by
  have hstep : lockOrder.Step (start sameChannel) _ :=
    .next true (.acquire (.polling 1)) [.access 1, .access 1, .release] rfl
      fun _ _ _ _ hheld => nomatch hheld
  have h := channel_locks_progress sameChannel _ (.single hstep)
  refine ⟨_, .single hstep, rfl, rfl, h.1 true nofun, fun u rest => ?_⟩
  exact h.2 true u 1 [.access 1, .release] rest rfl

end NewApi.Channels
