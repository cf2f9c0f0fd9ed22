import Mathlib.Algebra.Ring.Int.Defs
import NewApi.Foundation.Run

/-!
# Batched updates

`addNewRecord` and `batchUpdate` of `model/utils.go`.  Records go into a map for each type under
the lock of the type; the updater swaps the maps for empty ones, type by type, and then adds what
it has taken to the database while new records come in.  Database operations succeed.
-/

namespace NewApi.Batch

open Foundation List

section

universe u

variable {κ : Type u} [DecidableEq κ]

def addNewRecord (key : κ) (value : Int) : List (κ × Int) → List (κ × Int)
  | [] => [(key, value)]
  | (k, v) :: rest =>
    if k = key then (k, v + value) :: rest else (k, v) :: addNewRecord key value rest

def amount (entries : List (κ × Int)) (key : κ) : Int :=
  ((entries.filter fun e => e.1 = key).map Prod.snd).sum

theorem amount_cons (k : κ) (v : Int) (rest : List (κ × Int)) (key : κ) :
    amount ((k, v) :: rest) key = (if k = key then v else 0) + amount rest key := by
  unfold amount
  by_cases hkey : k = key <;> simp [hkey]

private theorem amount_append (first second : List (κ × Int)) (key : κ) :
    amount (first ++ second) key = amount first key + amount second key := by
  simp [amount]

private theorem amount_addNewRecord (entries : List (κ × Int)) (key : κ) (value : Int) (k : κ) :
    amount (addNewRecord key value entries) k =
      amount entries k + if key = k then value else 0 := by
  induction entries with
  | nil => rw [addNewRecord, amount_cons, Int.add_comm]
  | cons e rest ih =>
    rw [addNewRecord]
    split
    · next hsame =>
      rw [amount_cons, amount_cons, ← hsame]
      split <;> omega
    · rw [amount_cons, amount_cons, ih, Int.add_assoc]

theorem amount_filter (p : κ → Bool) (entries : List (κ × Int)) (key : κ) :
    amount (entries.filter fun e => p e.1) key = if p key then amount entries key else 0 := by
  have hsame : (entries.filter fun e => decide (e.1 = key) && p e.1) =
      entries.filter fun e => decide (e.1 = key) && p key := by
    apply filter_congr
    intro e _
    by_cases hkey : e.1 = key <;> simp [hkey]
  unfold amount
  rw [filter_filter, hsame]
  cases p key with
  | true => simp
  | false =>
    have hnone : (entries.filter fun e => decide (e.1 = key) && false) = [] := by
      rw [filter_eq_nil_iff]
      simp
    rw [hnone]
    rfl

end

inductive BatchUpdateType where
  | userQuota
  | tokenQuota
  | usedQuota
  | channelUsedQuota
  | requestCount
  deriving DecidableEq

def allTypes : List BatchUpdateType :=
  [.userQuota, .tokenQuota, .usedQuota, .channelUsedQuota, .requestCount]

abbrev Key := BatchUpdateType × Int

/-- The three values of a user are written by one update. -/
inductive BatchTarget where
  | token
  | channel
  | user

def BatchTarget.types : BatchTarget → List BatchUpdateType
  | .token => [.tokenQuota]
  | .channel => [.channelUsedQuota]
  | .user => [.userQuota, .usedQuota, .requestCount]

def BatchTarget.selects (target : BatchTarget) (id : Int) (key : Key) : Bool :=
  key.1 ∈ target.types ∧ key.2 = id

/-- Where `batchUpdate` is: it looks for data, then swaps the stores of the types that are left,
then applies what it has taken. -/
inductive Phase where
  | idle
  | checking (rest : List BatchUpdateType)
  | swapping (rest : List BatchUpdateType) (taken : List (Key × Int))
  | applying (taken : List (Key × Int))

structure State where
  db : Key → Int
  stores : List (Key × Int) := []
  phase : Phase := .idle

open State

/-- Each event is one critical section, or one update of the database; the keys of a map come in
any order. -/
inductive Event where
  | record (type : BatchUpdateType) (id value : Int)
  | tick
  | apply (target : BatchTarget) (id : Int)

section

variable (s : State)

def tick : State :=
  match s.phase with
  | .idle => { s with phase := .checking allTypes }
  | .checking [] => { s with phase := .idle }
  | .checking (type :: rest) =>
    if s.stores.any fun e => e.1.1 = type then { s with phase := .swapping allTypes [] }
    else { s with phase := .checking rest }
  | .swapping [] taken => { s with phase := .applying taken }
  | .swapping (type :: rest) taken =>
    { s with
      stores := s.stores.filter fun e => e.1.1 ≠ type
      phase := .swapping rest (taken ++ s.stores.filter fun e => e.1.1 = type) }
  | .applying [] => { s with phase := .idle }
  | .applying (_ :: _) => s

def step : Event → State
  | .record type id value => { s with stores := addNewRecord (type, id) value s.stores }
  | .tick => tick s
  | .apply target id =>
    match s.phase with
    | .applying taken =>
      { s with
        db := fun key => s.db key + if target.selects id key then amount taken key else 0
        phase := .applying (taken.filter fun e => !target.selects id e.1) }
    | _ => s

def Phase.taken : Phase → List (Key × Int)
  | .swapping _ taken | .applying taken => taken
  | _ => []

/-- The database value, what is pending in the store and what is in the batch. -/
def State.balance (key : Key) : Int := s.db key + amount s.stores key + amount s.phase.taken key

def Event.delta (key : Key) : Event → Int
  | .record type id value => if (type, id) = key then value else 0
  | _ => 0

def recorded (events : List Event) (key : Key) : Int := (events.map (Event.delta key)).sum

def Event.isRecord : Event → Bool
  | .record .. => true
  | _ => false

private theorem balance_tick (key : Key) : (tick s).balance key = s.balance key := by
  unfold tick
  split
  · next hphase => simp [balance, hphase, Phase.taken]
  · next hphase => simp [balance, hphase, Phase.taken]
  · next hphase => split <;> simp [balance, hphase, Phase.taken]
  · next hphase => simp [balance, hphase, Phase.taken]
  · next type rest taken hphase =>
    have hkept := amount_filter (fun k : Key => decide (k.1 ≠ type)) s.stores key
    have hmoved := amount_filter (fun k : Key => decide (k.1 = type)) s.stores key
    simp only [balance, hphase, Phase.taken, amount_append, hkept, hmoved]
    by_cases htype : key.1 = type
    · simp [htype]
      omega
    · simp [htype]
  · next hphase => simp [balance, hphase, Phase.taken]
  · rfl

theorem balance_step (e : Event) (key : Key) :
    (step s e).balance key = s.balance key + e.delta key := by
  cases e with
  | record =>
    simp only [step, balance, Event.delta, amount_addNewRecord]
    omega
  | tick => simp [step, balance_tick, Event.delta]
  | apply target id =>
    simp only [step, Event.delta, Int.add_zero]
    split
    · next taken hphase =>
      have hkept := amount_filter (fun k => !target.selects id k) taken key
      simp only [balance, hphase, Phase.taken, hkept]
      cases target.selects id key with
      | true => simp [Int.add_right_comm]
      | false => simp
    · rfl

/-- As long as nothing is recorded, the types that were looked at or swapped have no data. -/
def Drained : Prop :=
  match s.phase with
  | .checking rest | .swapping rest _ => ∀ e ∈ s.stores, e.1.1 ∈ rest
  | _ => s.stores = []

end

theorem mem_allTypes (type : BatchUpdateType) : type ∈ allTypes := by
  cases type <;> decide

private theorem drained_tick {s : State} (h : Drained s) : Drained (tick s) := by
  unfold tick
  unfold Drained at h
  split
  · exact fun e _ => mem_allTypes e.1.1
  · next hphase =>
    rw [hphase] at h
    exact eq_nil_iff_forall_not_mem.mpr fun e he => not_mem_nil (h e he)
  · next type rest hphase =>
    rw [hphase] at h
    split
    · exact fun e _ => mem_allTypes e.1.1
    next hnone =>
    intro e he
    apply (mem_cons.mp (h e he)).resolve_left
    intro htype
    exact hnone (any_eq_true.mpr ⟨e, he, by simpa using htype⟩)
  · next hphase =>
    rw [hphase] at h
    exact eq_nil_iff_forall_not_mem.mpr fun e he => not_mem_nil (h e he)
  · next type rest taken hphase =>
    rw [hphase] at h
    intro e he
    obtain ⟨hmem, hother⟩ := mem_filter.mp he
    exact (mem_cons.mp (h e hmem)).resolve_left (by simpa using hother)
  · next hphase =>
    rw [hphase] at h
    exact h
  · next hphase =>
    simpa [Drained, hphase] using h

theorem drained_step {s : State} (h : Drained s) {e : Event} (hrecord : e.isRecord = false) :
    Drained (step s e) := by
  cases e with
  | record => cases hrecord
  | tick => exact drained_tick h
  | apply =>
    dsimp only [step]
    split
    · next hphase =>
      unfold Drained at h
      rw [hphase] at h
      exact h
    · exact h

/-- In every interleaving the database, the store and the batch make up what was there and what
was recorded, and a `batchUpdate` without a concurrent record leaves nothing pending. -/
theorem batch_updates_conserved (db : Key → Int) (events : List Event) :
    (∀ key, (run step { db := db } events).balance key = db key + recorded events key) ∧
      ∀ more, (∀ e ∈ more, e.isRecord = false) →
        (run step { db := db } events).phase = .idle →
        (run step (tick (run step { db := db } events)) more).phase = .idle →
          (run step (tick (run step { db := db } events)) more).stores = [] := by
  constructor
  · intro key
    suffices hall : ∀ s : State, (run step s events).balance key =
        s.balance key + recorded events key by
      simpa [balance, amount, Phase.taken] using hall { db := db }
    induction events with
    | nil => simp [recorded]
    | cons e events ih =>
      intro s
      rw [run_cons, ih, balance_step]
      simp only [recorded, map_cons, sum_cons]
      omega
  · intro more hmore hidle hend
    generalize run step { db := db } events = s at hidle hend ⊢
    have hstart : Drained (tick s) := by
      unfold tick
      rw [hidle]
      exact fun e _ => mem_allTypes e.1.1
    have hdrained : Drained (run step (tick s) more) := by
      generalize tick s = s' at hstart
      clear hend
      induction more generalizing s' with
      | nil => exact hstart
      | cons e more ih =>
        rw [forall_mem_cons] at hmore
        exact ih hmore.2 _ (drained_step hstart hmore.1)
    unfold Drained at hdrained
    rw [hend] at hdrained
    exact hdrained

theorem batch_updates_conserved_token :
    (run step { db := fun _ => 0 } [.record .tokenQuota 3 5]).balance (.tokenQuota, 3) = 5 ∧
      (run step (tick (run step { db := fun _ => 0 } [.record .tokenQuota 3 5]))
        (replicate 8 .tick ++ [.apply .token 3, .tick])).stores = [] := by
  have h := batch_updates_conserved (fun _ => 0) [.record .tokenQuota 3 5]
  exact ⟨h.1 _, h.2 _ (by decide) rfl rfl⟩

end NewApi.Batch
