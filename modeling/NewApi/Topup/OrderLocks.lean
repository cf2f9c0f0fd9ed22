import Mathlib.Algebra.Ring.Nat
import Mathlib.Data.List.Basic
import NewApi.Foundation.Run

/-!
# Order locks

`LockOrder` and `UnlockOrder` of `controller/topup.go`.  A mutex that counts its users is created
and deleted under `createLock`, and is itself taken outside of it.  The steps for one order do not
touch another, so that the state is a family over the trade numbers.
-/

namespace NewApi.Topup

open Foundation List Function

structure RefCountedMutex where
  locked : Bool := false
  refCount : Int := 0

/-- Where a user is: it waits in `LockOrder`, holds the lock, has looked the mutex up in
`UnlockOrder`, or has unlocked it and not given its reference back. -/
inductive Place where
  | waiting
  | holding
  | loaded
  | released
  deriving DecidableEq

def Place.locks (place : Place) : Bool := place = .holding ∨ place = .loaded

structure LockUser where
  mutex : Nat
  place : Place

/-- `entry` is what `orderLocks` has for the order, `mutexes` the memory, of which `next` is the
first free place. -/
structure OrderLock where
  entry : Option Nat := none
  mutexes : Nat → RefCountedMutex := fun _ => {}
  next : Nat := 0
  users : List LockUser := []

/-- Beside `lockOrder`, the events are steps of the `i`-th user. -/
inductive LockEvent where
  | lockOrder
  | acquire (i : Nat)
  | load (i : Nat)
  | unlock (i : Nat)
  | giveBack (i : Nat)

namespace OrderLock

section

variable (s : OrderLock)

def move (i m : Nat) (place : Place) : OrderLock :=
  { s with users := s.users.set i ⟨m, place⟩ }

def setMutex (m : Nat) (mutex : RefCountedMutex) : OrderLock :=
  { s with mutexes := update s.mutexes m mutex }

def enter : OrderLock :=
  match s.entry with
  | some m =>
    { s.setMutex m { s.mutexes m with refCount := (s.mutexes m).refCount + 1 } with
      users := s.users ++ [⟨m, .waiting⟩] }
  | none =>
    { s.setMutex s.next { refCount := 1 } with
      entry := some s.next
      next := s.next + 1
      users := s.users ++ [⟨s.next, .waiting⟩] }

def leave (i m : Nat) : OrderLock :=
  let count := (s.mutexes m).refCount - 1
  { s.setMutex m { s.mutexes m with refCount := count } with
    entry := if count = 0 then none else s.entry
    users := s.users.eraseIdx i }

/-- An event that is not the next one of its user does nothing. -/
def step : LockEvent → OrderLock
  | .lockOrder => s.enter
  | .acquire i =>
    match s.users[i]? with
    | some ⟨m, .waiting⟩ =>
      if (s.mutexes m).locked then s
      else (s.setMutex m { s.mutexes m with locked := true }).move i m .holding
    | _ => s
  | .load i =>
    match s.users[i]?, s.entry with
    | some ⟨_, .holding⟩, some m => s.move i m .loaded
    | some ⟨_, .holding⟩, none => { s with users := s.users.eraseIdx i }
    | _, _ => s
  | .unlock i =>
    match s.users[i]? with
    | some ⟨m, .loaded⟩ =>
      (s.setMutex m { s.mutexes m with locked := false }).move i m .released
    | _ => s
  | .giveBack i =>
    match s.users[i]? with
    | some ⟨m, .released⟩ => s.leave i m
    | _ => s

/-- The users have the mutex, which counts them and knows whether one of them has the lock. -/
structure Shared (users : List LockUser) (m : Nat) (mutex : RefCountedMutex) : Prop where
  counted : mutex.refCount = users.length
  same : ∀ u ∈ users, u.mutex = m
  locked : users.countP (·.place.locks) = if mutex.locked then 1 else 0

def Inv : Prop :=
  match s.entry with
  | some m => s.users ≠ [] ∧ Shared s.users m (s.mutexes m)
  | none => s.users = []

end

variable {s : OrderLock} {i m : Nat} {u : LockUser} {before after : List LockUser}
  {mutex : RefCountedMutex} {place place' : Place}

theorem Shared.add (h : Shared before m mutex) :
    Shared (before ++ [⟨m, .waiting⟩]) m { mutex with refCount := mutex.refCount + 1 } := by
  refine ⟨by simp [h.counted], ?_, ?_⟩
  · simpa [or_imp, forall_and] using h.same
  · simpa [Place.locks] using h.locked

theorem Shared.move {locked : Bool} (h : Shared (before ++ ⟨m, place⟩ :: after) m mutex)
    (hlock : ((if locked then 1 else 0) + if place.locks then 1 else 0) =
      (if mutex.locked then 1 else 0) + if place'.locks then 1 else 0) :
    Shared (before ++ ⟨m, place'⟩ :: after) m { mutex with locked := locked } := by
  refine ⟨by simpa using h.counted, ?_, ?_⟩
  · simpa [or_imp, forall_and] using h.same
  · have hbefore := h.locked
    simp only [countP_append, countP_cons] at hbefore ⊢
    omega

theorem Shared.remove (h : Shared (before ++ ⟨m, .released⟩ :: after) m mutex) :
    Shared (before ++ after) m { mutex with refCount := mutex.refCount - 1 } := by
  refine ⟨?_, fun u hu => h.same u (by simp at hu ⊢; tauto), ?_⟩
  · have hcounted := h.counted
    simp only [length_append, length_cons] at hcounted ⊢
    omega
  · simpa [countP_append, countP_cons, Place.locks] using h.locked

theorem Inv.user (h : s.Inv) (hi : s.users[i]? = some u) :
    ∃ before after, s.users = before ++ u :: after ∧ before.length = i ∧
      s.entry = some u.mutex ∧ Shared (before ++ u :: after) u.mutex (s.mutexes u.mutex) := by
  obtain ⟨hlt, rfl⟩ := List.getElem?_eq_some_iff.mp hi
  have husers : s.users = s.users.take i ++ s.users[i] :: s.users.drop (i + 1) := by simp
  refine ⟨_, _, husers, by simp; omega, ?_⟩
  unfold Inv at h
  rw [← husers]
  split at h
  · next m hm =>
    rw [h.2.same _ (getElem_mem hlt)]
    exact ⟨hm, h.2⟩
  · simp [h] at hlt

theorem Inv.move {locked : Bool} (h : s.Inv) (hi : s.users[i]? = some ⟨m, place⟩)
    (hlock : ((if locked then 1 else 0) + if place.locks then 1 else 0) =
      (if (s.mutexes m).locked then 1 else 0) + if place'.locks then 1 else 0) :
    ((s.setMutex m { s.mutexes m with locked := locked }).move i m place').Inv := by
  obtain ⟨before, after, husers, rfl, hentry, hshared⟩ := h.user hi
  have hmoved : s.users.set before.length ⟨m, place'⟩ = before ++ ⟨m, place'⟩ :: after := by
    simp [husers]
  simp only [Inv, OrderLock.move, setMutex, hentry, hmoved, update_self]
  exact ⟨by simp, hshared.move hlock⟩

theorem Inv.lockOrder (h : s.Inv) : (s.step .lockOrder).Inv := by
  unfold Inv at h
  dsimp only [OrderLock.step, enter]
  cases hm : s.entry with
  | some m =>
    rw [hm] at h
    simp only [Inv, setMutex, hm, update_self]
    exact ⟨by simp, h.2.add⟩
  | none =>
    rw [hm] at h
    simp only [Inv, setMutex, h, update_self]
    exact ⟨by simp, rfl, by simp, rfl⟩

theorem Inv.acquire (h : s.Inv) (i : Nat) : (s.step (.acquire i)).Inv := by
  dsimp only [OrderLock.step]
  split
  · next hi =>
    split
    · exact h
    · next hfree => exact h.move hi (by simp [Place.locks, hfree])
  · exact h

theorem Inv.load (h : s.Inv) (i : Nat) : (s.step (.load i)).Inv := by
  dsimp only [OrderLock.step]
  split
  · next m m' hi hm =>
    obtain ⟨-, -, -, -, hentry, -⟩ := h.user hi
    obtain rfl : m = m' := Option.some.inj (hentry.symm.trans hm)
    have hmoved : ((s.setMutex m { s.mutexes m with locked := (s.mutexes m).locked }).move i m
      .loaded).Inv := h.move hi rfl
    simpa [setMutex] using hmoved
  · next hi hm =>
    obtain ⟨-, -, -, -, hentry, -⟩ := h.user hi
    rw [hm] at hentry
    cases hentry
  · exact h

theorem Inv.unlock (h : s.Inv) (i : Nat) : (s.step (.unlock i)).Inv := by
  dsimp only [OrderLock.step]
  split
  · next m hi =>
    obtain ⟨before, after, -, -, -, hshared⟩ := h.user hi
    have hheld : (s.mutexes m).locked = true := by
      by_contra hfree
      have hlocked := hshared.locked
      simp [countP_append, Place.locks, hfree] at hlocked
    exact h.move hi (by simp [Place.locks, hheld])
  · exact h

theorem Inv.giveBack (h : s.Inv) (i : Nat) : (s.step (.giveBack i)).Inv := by
  dsimp only [OrderLock.step]
  split
  · next m hi =>
    obtain ⟨before, after, husers, rfl, hentry, hshared⟩ := h.user hi
    have herase : s.users.eraseIdx before.length = before ++ after := by
      simp [husers, eraseIdx_append_of_length_le]
    have hcount : (s.mutexes m).refCount - 1 = (before ++ after).length :=
      hshared.remove.counted
    simp only [leave, Inv, setMutex, herase, hentry]
    by_cases hnil : before ++ after = []
    · have hzero : (s.mutexes m).refCount - 1 = 0 := by rw [hcount, hnil]; rfl
      simp [hzero, hnil]
    · have hsome : (s.mutexes m).refCount - 1 ≠ 0 := by
        have hpos := length_pos_iff.mpr hnil
        omega
      simpa [hsome, hnil] using hshared.remove
  · exact h

theorem Inv.step (h : s.Inv) (e : LockEvent) : (s.step e).Inv := by
  cases e with
  | lockOrder => exact h.lockOrder
  | acquire i => exact h.acquire i
  | load i => exact h.load i
  | unlock i => exact h.unlock i
  | giveBack i => exact h.giveBack i

end OrderLock

def lockStep (locks : String → OrderLock) (e : String × LockEvent) : String → OrderLock :=
  update locks e.1 ((locks e.1).step e.2)

/-- In every run of `LockOrder` and `UnlockOrder`, at most one goroutine holds an order's lock,
everyone between the two calls has the mutex that `orderLocks` stores for the order, and the
entry is there exactly as long as someone is: waiting, holding, or with the mutex already
unlocked and the reference not yet given back. -/
theorem order_locks_exclusive (events : List (String × LockEvent)) (tradeNo : String) :
    let s := run lockStep (fun _ => {}) events tradeNo
    s.users.countP (·.place.locks) ≤ 1 ∧ (∀ u ∈ s.users, s.entry = some u.mutex) ∧
      (s.entry.isSome ↔ s.users ≠ []) := by
  have hstep : ∀ locks e, (∀ t, (locks t).Inv) → ∀ t, (lockStep locks e t).Inv := by
    intro locks e h t
    unfold lockStep
    by_cases ht : t = e.1
    · subst ht
      rw [update_self]
      exact (h e.1).step e.2
    · rw [update_of_ne ht]
      exact h t
  have hinit : ∀ t, ((fun _ => {} : String → OrderLock) t).Inv := fun _ => rfl
  intro s
  have h : s.Inv := run_invariant hstep hinit events tradeNo
  unfold OrderLock.Inv at h
  split at h
  · next m hm =>
    obtain ⟨hne, hshared⟩ := h
    refine ⟨?_, fun u hu => hm.trans (congrArg some (hshared.same u hu).symm), by simp [hm, hne]⟩
    rw [hshared.locked]
    split <;> omega
  · next hm => simp [h, hm]

/-- The only user has unlocked the mutex and not given its reference back. -/
theorem order_locks_exclusive_counterexample :
    ∃ s, s = run lockStep (fun _ => {}) [("t", .lockOrder), ("t", .acquire 0), ("t", .load 0),
        ("t", .unlock 0)] "t" ∧ s.entry.isSome ∧ ∀ u ∈ s.users, u.place = .released := by
  refine ⟨_, rfl, ?_⟩
  decide

/-- The steps that a user has yet to take. -/
def Place.left : Place → Nat
  | .waiting => 4
  | .holding => 3
  | .loaded => 2
  | .released => 1

namespace OrderLock

def work (s : OrderLock) : Nat := (s.users.map (·.place.left)).sum

variable {s : OrderLock}

theorem Inv.exists_ready (h : s.Inv) (husers : s.users ≠ []) :
    ∃ u ∈ s.users, u.place = .waiting → (s.mutexes u.mutex).locked = false := by
  by_cases hlocks : ∃ u ∈ s.users, u.place.locks = true
  · obtain ⟨u, hu, hlock⟩ := hlocks
    refine ⟨u, hu, fun hwaiting => ?_⟩
    rw [hwaiting] at hlock
    cases hlock
  · obtain ⟨u, hu⟩ := exists_mem_of_ne_nil _ husers
    refine ⟨u, hu, fun _ => ?_⟩
    obtain ⟨i, hi⟩ := getElem?_of_mem hu
    obtain ⟨before, after, hsplit, -, -, hshared⟩ := h.user hi
    have hlocked := hshared.locked
    rw [← hsplit, countP_eq_zero.mpr fun u hu hlock => hlocks ⟨u, hu, hlock⟩] at hlocked
    by_contra htrue
    simp [htrue] at hlocked

theorem Inv.exists_step (h : s.Inv) (husers : s.users ≠ []) :
    ∃ e, e ≠ .lockOrder ∧ (s.step e).work < s.work := by
  obtain ⟨⟨m, place⟩, hu, hfree⟩ := h.exists_ready husers
  obtain ⟨i, hi⟩ := getElem?_of_mem hu
  obtain ⟨before, after, hsplit, rfl, hentry, -⟩ := h.user hi
  cases place with
  | waiting =>
    refine ⟨.acquire before.length, nofun, ?_⟩
    simp [OrderLock.step, hfree rfl, work, OrderLock.move, setMutex, hsplit, Place.left]
  | holding =>
    refine ⟨.load before.length, nofun, ?_⟩
    simp [OrderLock.step, hentry, work, OrderLock.move, hsplit, Place.left]
  | loaded =>
    refine ⟨.unlock before.length, nofun, ?_⟩
    simp [OrderLock.step, work, OrderLock.move, setMutex, hsplit, Place.left]
  | released =>
    refine ⟨.giveBack before.length, nofun, ?_⟩
    simp [OrderLock.step, work, leave, setMutex, hsplit, Place.left,
      eraseIdx_append_of_length_le]

theorem Inv.exists_drain (h : s.Inv) :
    ∃ more, LockEvent.lockOrder ∉ more ∧ (run OrderLock.step s more).users = [] ∧
      (run OrderLock.step s more).entry = none := by
  induction hwork : s.work using Nat.strongRecOn generalizing s with
  | ind n ih =>
    by_cases husers : s.users = []
    · refine ⟨[], not_mem_nil, husers, ?_⟩
      unfold Inv at h
      split at h
      · exact absurd husers h.1
      · assumption
    · obtain ⟨e, he, hless⟩ := h.exists_step husers
      obtain ⟨more, hmore, hdrained⟩ := ih _ (hwork ▸ hless) (h.step e) rfl
      exact ⟨e :: more, by simp [he.symm, hmore], hdrained⟩

end OrderLock

/-- There is no deadlock: without anyone else coming, everyone who waits for the order can get
through, and `orderLocks` then has no entry left. -/
theorem order_locks_drain (events : List LockEvent) :
    ∃ more, LockEvent.lockOrder ∉ more ∧ (run OrderLock.step {} (events ++ more)).users = [] ∧
      (run OrderLock.step {} (events ++ more)).entry = none := by
  have hinit : OrderLock.Inv {} := rfl
  have h : (run OrderLock.step {} events).Inv := run_invariant (fun _ e h => h.step e) hinit events
  simpa only [run_append] using h.exists_drain

end NewApi.Topup
