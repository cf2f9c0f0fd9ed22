import NewApi.Foundation.Run
import NewApi.Foundation.Table

/-!
# The second factor

`model/twofa.go` for one user.  An attempt works on the copy of the row that it has loaded and
saves the whole copy; the attempts take turns in any order.
-/

namespace NewApi.Users

open Foundation Function List

def maxFailAttempts : Nat := 5

def lockoutDuration : Nat := 300

structure TwoFA where
  failedAttempts : Nat := 0
  lockedUntil : Option Nat := none
  lastUsedAt : Option Nat := none

namespace TwoFA

def isLocked (t : TwoFA) (now : Nat) : Bool := t.lockedUntil.any (now < ·)

def incrementFailedAttempts (t : TwoFA) (now : Nat) : TwoFA :=
  { t with
    failedAttempts := t.failedAttempts + 1
    lockedUntil :=
      if t.failedAttempts + 1 ≥ maxFailAttempts then some (now + lockoutDuration)
      else t.lockedUntil }

def updateUsage (now : Nat) : TwoFA := ⟨0, none, some now⟩

inductive Factor where
  | backup (id : Nat)
  | totp (code : String) (period : Nat)
  deriving DecidableEq

/-- Between two calls, with an unused code that was found, or with a copy that is to be saved. -/
inductive Phase where
  | between
  | found (id : Nat)
  | unsaved

structure Attempt where
  copy : TwoFA
  phase : Phase

/-- `accepted` is what was accepted, `wrong` the wrong codes compared since. -/
structure State where
  row : TwoFA := {}
  isUsed : Nat → Bool := fun _ => false
  attempts : Nat → Option Attempt := fun _ => none
  accepted : List Factor := []
  wrong : Nat := 0

/-- A TOTP code, or the backup code whose hash matches. -/
inductive Given where
  | totp (code : String)
  | backup (id : Option Nat)

inductive Event where
  | load (k : Nat)
  | validate (k now : Nat) (given : Given)
  | mark (k now : Nat) (ok : Bool)
  | save (k : Nat) (ok : Bool)

namespace State

variable (s : State)

def set (k : Nat) (t : TwoFA) (phase : Phase) : State :=
  { s with attempts := update s.attempts k (some ⟨t, phase⟩) }

def refuse (k now : Nat) (t : TwoFA) : State :=
  { s.set k (t.incrementFailedAttempts now) .unsaved with wrong := s.wrong + 1 }

def accept (k now : Nat) (factor : Factor) : State :=
  { s.set k (updateUsage now) .unsaved with accepted := factor :: s.accepted, wrong := 0 }

/-- Attempt `k` is between a comparison and its last write. -/
def Busy (k : Nat) : Prop := ∃ a ∈ s.attempts k, a.phase ≠ .between

end State

section

variable (valid : Nat → String → Bool)

def validateAndUpdateUsage (s : State) (k now : Nat) (t : TwoFA) : Given → State
  | .totp code =>
    if valid now code then s.accept k now (.totp code (now / 30)) else s.refuse k now t
  | .backup id =>
    match id.filter (!s.isUsed ·) with
    | some id => s.set k t (.found id)
    | none => s.refuse k now t

def step (s : State) : Event → State
  | .load k =>
    match s.attempts k with
    | none | some ⟨_, .between⟩ => s.set k s.row .between
    | _ => s
  | .validate k now given =>
    match s.attempts k with
    | some ⟨t, .between⟩ =>
      if t.isLocked now then s else validateAndUpdateUsage valid s k now t given
    | _ => s
  | .mark k now ok =>
    match s.attempts k with
    | some ⟨t, .found id⟩ =>
      if ok then { s.accept k now (.backup id) with isUsed := update s.isUsed id true }
      else s.set k t .between
    | _ => s
  | .save k ok =>
    match s.attempts k with
    | some ⟨t, .unsaved⟩ => { s.set k t .between with row := if ok then t else s.row }
    | _ => s

end

def Tracks (t : TwoFA) (wrong : Nat) : Prop :=
  t.failedAttempts = wrong ∧ (t.lockedUntil = none → wrong < maxFailAttempts)

/-- Attempts are taken up with the stored row, one after another, and are saved. -/
def Serial (s : State) : Event → Prop
  | .load _ => ∀ j, ¬ s.Busy j
  | .validate k _ _ => (∀ j, ¬ s.Busy j) ∧ ∀ a ∈ s.attempts k, a.copy = s.row
  | .save _ ok => ok = true
  | .mark .. => True

def Fresh (s : State) : Event → Prop
  | .validate _ now (.totp code) => .totp code (now / 30) ∉ s.accepted
  | _ => True

def Good (s : State) : Option Attempt → Prop
  | some ⟨t, .unsaved⟩ => Tracks t s.wrong
  | some ⟨_, .found id⟩ => s.isUsed id = false ∧ Tracks s.row s.wrong
  | _ => Tracks s.row s.wrong

def Led (s : State) (k : Nat) : Prop := (∀ j, j ≠ k → ¬ s.Busy j) ∧ Good s (s.attempts k)

/-- `fresh` says whether no TOTP code is tried again. -/
structure Inv (fresh : Prop) (s : State) : Prop where
  nodup : fresh → s.accepted.Nodup
  used : ∀ id, .backup id ∈ s.accepted → s.isUsed id = true
  led : ∃ k, Led s k

variable {fresh : Prop} {valid : Nat → String → Bool} {s s' : State} {k now wrong : Nat}
  {t : TwoFA} {a : Attempt} {e : Event}

theorem tracks_updateUsage : Tracks (updateUsage now) 0 := ⟨rfl, fun _ => by decide⟩

theorem Tracks.increment (h : Tracks t wrong) :
    Tracks (t.incrementFailedAttempts now) (wrong + 1) := by
  refine ⟨congrArg (· + 1) h.1, fun hnone => ?_⟩
  simp only [incrementFailedAttempts, h.1] at hnone
  split at hnone
  · cases hnone
  · omega

theorem Inv.tracks (h : Inv fresh s) (hfree : ∀ j, ¬ s.Busy j) : Tracks s.row s.wrong := by
  obtain ⟨k, -, hgood⟩ := h.led
  cases hk : s.attempts k with
  | none => rwa [hk] at hgood
  | some a =>
    obtain ⟨t, phase⟩ := a
    rw [hk] at hgood
    cases phase with
    | between => exact hgood
    | found => exact hgood.2
    | unsaved => exact absurd ⟨_, hk, by simp⟩ (hfree k)

theorem Inv.led_of_busy (h : Inv fresh s) (hbusy : s.Busy k) : Led s k := by
  obtain ⟨k', hothers, hgood⟩ := h.led
  by_cases hk : k = k'
  · exact hk ▸ ⟨hothers, hgood⟩
  · exact absurd hbusy (hothers k hk)

theorem exists_led (hattempts : s'.attempts = update s.attempts k (some a))
    (hothers : ∀ j, j ≠ k → ¬ s.Busy j) (hgood : Good s' (some a)) : ∃ k, Led s' k := by
  refine ⟨k, fun j hj => ?_, by rwa [hattempts, update_self]⟩
  rw [State.Busy, hattempts, update_of_ne hj]
  exact hothers j hj

theorem Inv.load (h : Inv fresh s) (hfree : ∀ j, ¬ s.Busy j) :
    Inv fresh (step valid s (.load k)) := by
  have hgood : Inv fresh (s.set k s.row .between) :=
    ⟨h.nodup, h.used, exists_led rfl (fun j _ => hfree j) (h.tracks hfree)⟩
  dsimp only [TwoFA.step]
  split
  · exact hgood
  · exact hgood
  · exact h

theorem Inv.validateAndUpdateUsage {given : Given} (h : Inv fresh s)
    (hfree : ∀ j, ¬ s.Busy j)
    (hfresh : fresh → Fresh s (.validate k now given)) :
    Inv fresh (validateAndUpdateUsage valid s k now s.row given) := by
  have hothers : ∀ j, j ≠ k → ¬ s.Busy j := fun j _ => hfree j
  have htracks := h.tracks hfree
  have hrefused : Inv fresh (s.refuse k now s.row) :=
    ⟨h.nodup, h.used, exists_led rfl hothers htracks.increment⟩
  unfold TwoFA.validateAndUpdateUsage
  split
  · split
    · refine ⟨fun hf => nodup_cons.mpr ⟨hfresh hf, h.nodup hf⟩, ?_,
        exists_led rfl hothers tracks_updateUsage⟩
      simpa [State.accept, State.set] using h.used
    · exact hrefused
  · split
    · next hid =>
      have hunused := (Option.filter_eq_some_iff.mp hid).2
      rw [Bool.not_eq_true'] at hunused
      exact ⟨h.nodup, h.used, exists_led rfl hothers ⟨hunused, htracks⟩⟩
    · exact hrefused

theorem Inv.validate {given : Given} (h : Inv fresh s)
    (hserial : Serial s (.validate k now given))
    (hfresh : fresh → Fresh s (.validate k now given)) :
    Inv fresh (step valid s (.validate k now given)) := by
  obtain ⟨hfree, hcopy⟩ := hserial
  dsimp only [TwoFA.step]
  split
  · next t hk =>
    obtain rfl : t = s.row := hcopy _ hk
    split
    · exact h
    · exact h.validateAndUpdateUsage hfree hfresh
  · exact h

theorem Inv.mark {ok : Bool} (h : Inv fresh s) :
    Inv fresh (step valid s (.mark k now ok)) := by
  dsimp only [TwoFA.step]
  split
  · next t id hk =>
    obtain ⟨hothers, hgood⟩ := h.led_of_busy ⟨_, hk, by simp⟩
    rw [hk] at hgood
    split
    · refine ⟨fun hf => nodup_cons.mpr ⟨fun hin => ?_, h.nodup hf⟩, ?_,
        exists_led rfl hothers tracks_updateUsage⟩
      · have hused := h.used id hin
        rw [hgood.1] at hused
        cases hused
      · intro i hi
        change update s.isUsed id true i = true
        by_cases hid : i = id
        · rw [hid, update_self]
        · rw [update_of_ne hid]
          exact h.used i (by simpa [State.accept, State.set, hid] using hi)
    · exact ⟨h.nodup, h.used, exists_led rfl hothers hgood.2⟩
  · exact h

theorem Inv.save (h : Inv fresh s) : Inv fresh (step valid s (.save k true)) := by
  dsimp only [TwoFA.step]
  split
  · next t hk =>
    obtain ⟨hothers, hgood⟩ := h.led_of_busy ⟨_, hk, by simp⟩
    rw [hk] at hgood
    exact ⟨h.nodup, h.used, exists_led rfl hothers hgood⟩
  · exact h

theorem Inv.step (h : Inv fresh s) (hserial : Serial s e) (hfresh : fresh → Fresh s e) :
    Inv fresh (step valid s e) := by
  cases e with
  | load k => exact h.load hserial
  | validate k now given => exact h.validate hserial hfresh
  | mark k now ok => exact h.mark
  | save k ok =>
    obtain rfl : ok = true := hserial
    exact h.save

theorem inv_init : Inv fresh {} :=
  ⟨fun _ => nodup_nil, by simp, 0, by simp [State.Busy], rfl, fun _ => by decide⟩

/-- Attempts one after another that try no TOTP code again in its period use a factor once. -/
theorem second_factor_once (valid : Nat → String → Bool) (events : List Event)
    (h : Admits (step valid) (fun s e => Serial s e ∧ Fresh s e) {} events) :
    (run (step valid) {} events).accepted.Nodup :=
  (Admits.invariant (Inv True) (fun _ _ hs he => hs.step he.1 fun _ => he.2) inv_init h).nodup
    trivial

/-- A backup code that is given twice, and one TOTP code in two periods. -/
def factorEvents : List Event :=
  [.load 0, .validate 0 10 (.backup (some 3)), .mark 0 10 true, .save 0 true,
    .load 0, .validate 0 11 (.backup (some 3)), .save 0 true,
    .load 0, .validate 0 12 (.totp "123456"), .save 0 true,
    .load 0, .validate 0 40 (.totp "123456"), .save 0 true]

theorem second_factor_once_each :
    (run (step fun _ _ => true) {} factorEvents).accepted =
        [.totp "123456" 1, .totp "123456" 0, .backup 3] ∧
      (run (step fun _ _ => true) {} factorEvents).accepted.Nodup := by
  refine ⟨by decide, second_factor_once _ _ ?_⟩
  simp [factorEvents, Serial, Fresh, step, validateAndUpdateUsage, State.set,
    State.accept, State.refuse, State.Busy, isLocked, updateUsage,
    incrementFailedAttempts, maxFailAttempts, Option.filter, update_some_eq_some_iff]

/-- Two attempts find the same backup code; one TOTP code is tried twice in its period. -/
theorem second_factor_twice :
    (run (step fun _ _ => true) {} [.load 0, .load 1, .validate 0 10 (.backup (some 3)),
      .validate 1 10 (.backup (some 3)), .mark 0 10 true, .mark 1 10 true]).accepted =
        [.backup 3, .backup 3] ∧
    (run (step fun _ _ => true) {} [.load 0, .validate 0 10 (.totp "123456"), .save 0 true,
      .load 1, .validate 1 11 (.totp "123456")]).accepted =
        [.totp "123456" 0, .totp "123456" 0] := by
  decide

/-- A code is compared only if the row is unlocked, and before a lock at most `maxFailAttempts`
wrong codes are compared. -/
def Guarded (s : State) : Event → Prop
  | .validate k now _ => ∀ t, s.attempts k = some ⟨t, .between⟩ → t.isLocked now = false →
      s.row.isLocked now = false ∧ (s.row.lockedUntil = none → s.wrong < maxFailAttempts)
  | _ => True

theorem lockout_bounds_guessing (valid : Nat → String → Bool) (events : List Event)
    (h : Admits (step valid) Serial {} events) : Admits (step valid) Guarded {} events := by
  refine Admits.steps (Inv False) (fun s e hs he => ⟨hs.step he (by simp), ?_⟩) inv_init h
  cases e with
  | validate => exact fun t ht hopen => ⟨he.2 _ ht ▸ hopen, (hs.tracks he.1).2⟩
  | _ => trivial

def guess : List Event :=
  [.load 0, .validate 0 10 (.totp "000000"), .save 0 true]

/-- Six wrong codes one after another; the sixth is not compared. -/
theorem lockout_bounds_guessing_wrong :
    let guesses := guess ++ guess ++ guess ++ guess ++ guess ++ guess
    Admits (step fun _ _ => false) Guarded {} guesses ∧
      (run (step fun _ _ => false) {} guesses).wrong = 5 := by
  refine ⟨lockout_bounds_guessing _ _ ?_, by decide⟩
  simp [guess, Serial, step, validateAndUpdateUsage, State.set, State.refuse,
    State.Busy, isLocked, incrementFailedAttempts, maxFailAttempts,
    lockoutDuration, update_some_eq_some_iff]

/-- Six copies are loaded, all are compared with wrong codes, and the row counts one. -/
theorem guesses_unbounded :
    let s := run (step fun _ _ => false) {} ([0, 1, 2, 3, 4, 5].map .load ++
      [0, 1, 2, 3, 4, 5].flatMap fun k => [.validate k 10 (.totp "000000"), .save k true])
    s.wrong = 6 ∧ s.row.failedAttempts = 1 ∧ s.row.lockedUntil = none := by
  decide

end TwoFA

end NewApi.Users
