import Mathlib.Tactic.Ring

/-!
# Times of the `time` package

A time without a fraction is its Unix time, read in a zone with a fixed offset
from UTC.  A `Duration` is a 64-bit number of nanoseconds, so that a large
number of seconds wraps around; calendar arithmetic is exact.  Months are
numbered through: month `12 * y + (m - 1)` is month `m` of year `y`.
-/

namespace NewApi.Foundation

universe u

def wrap64 (x : Int) : Int := (x + 2 ^ 63) % 2 ^ 64 - 2 ^ 63

def nanosPerSecond : Int := 1000000000

/-- Whole seconds of `time.Duration(n) * unit`, as `Time.Add` and `Unix` see them. -/
def durationSeconds (n unitSeconds : Int) : Int :=
  wrap64 (n * (unitSeconds * nanosPerSecond)) / nanosPerSecond

def secondsPerDay : Int := 86400

def dayOf (zone unix : Int) : Int := (unix + zone) / secondsPerDay

def midnight (zone day : Int) : Int := day * secondsPerDay - zone

theorem lt_midnight_iff {zone unix day : Int} :
    unix < midnight zone day ↔ dayOf zone unix < day := by
  unfold midnight dayOf secondsPerDay
  omega

theorem midnight_le_midnight {zone day later : Int} (h : day ≤ later) :
    midnight zone day ≤ midnight zone later := by
  unfold midnight secondsPerDay
  omega

/-- Sunday is 0; the epoch was a Thursday. -/
def weekday (day : Int) : Int := (day + 4) % 7

def marchStart (year : Int) : Int := 365 * year + year / 4 - year / 100 + year / 400

/-- First day of a month.  Years are counted from March, so that the leap day is
the last day of its year. -/
def monthStart (month : Int) : Int :=
  marchStart ((month - 2) / 12) + (153 * ((month - 2) % 12) + 2) / 5 - 719468

theorem monthStart_lt_iff {first second : Int} :
    monthStart first < monthStart second ↔ first < second := by
  have hstrict : StrictMono monthStart := by
    apply strictMono_int_of_lt_succ
    intro month
    unfold monthStart marchStart
    omega
  exact hstrict.lt_iff_lt

def searchMonth (day : Int) : Nat → Int → Int
  | 0, month => month
  | n + 1, month =>
    if day < monthStart (month + 1) then month else searchMonth day n (month + 1)

theorem searchMonth_contains {day : Int} {n : Nat} {month : Int}
    (hlow : monthStart month ≤ day) (hhigh : day < monthStart (month + n + 1)) :
    monthStart (searchMonth day n month) ≤ day ∧
      day < monthStart (searchMonth day n month + 1) := by
  induction n generalizing month with
  | zero =>
    simp only [Int.natCast_zero, add_zero] at hhigh
    exact ⟨hlow, hhigh⟩
  | succ n ih =>
    unfold searchMonth
    split
    · rename_i hfound
      exact ⟨hlow, hfound⟩
    rename_i hlater
    apply ih
    · omega
    · rw [show month + 1 + (n : Int) + 1 = month + ((n + 1 : Nat) : Int) + 1 by
        push_cast; ring]
      exact hhigh

/-- The month a day lies in; the mean year of 146097/400 days is off by less
than a year. -/
def monthOf (day : Int) : Int := searchMonth day 36 (12 * (400 * (day + 719528) / 146097) - 12)

theorem monthOf_contains (day : Int) :
    monthStart (monthOf day) ≤ day ∧ day < monthStart (monthOf day + 1) := by
  apply searchMonth_contains
  · unfold monthStart marchStart
    omega
  · unfold monthStart marchStart
    push_cast
    omega

example : monthStart (12 * 2024 + 2) - monthStart (12 * 2024 + 1) = 29 := by decide

/-- `AddDate` of a number of months: a day past the end of its month runs over
into the next one. -/
def addMonths (zone unix months : Int) : Int :=
  let day := dayOf zone unix
  let month := monthOf day
  midnight zone (monthStart (month + months) + (day - monthStart month)) +
    (unix - midnight zone day)

example : addMonths 0 1706659200 1 = 1709337600 := by decide

/-!
## Walks along ticks

A clock gives the tick after each time, and 0 where there is none.  A walk goes
from tick to tick as long as the next one is due.  Where it stops depends only on
the last time it has to reach, so that walks can be cut into pieces.
-/

section

variable {τ : Type u} [LT τ] [LE τ] [Zero τ]

def Due (now tick : τ) : Prop := 0 < tick ∧ tick ≤ now

instance [DecidableLT τ] [DecidableLE τ] (now tick : τ) : Decidable (Due now tick) :=
  inferInstanceAs (Decidable (0 < tick ∧ tick ≤ now))

/-- From a base and the tick after it to the last due tick and the tick after that. -/
inductive Walk (after : τ → τ) (now : τ) : τ → τ → τ → τ → Prop
  | stop {base next : τ} (hstop : ¬ Due now next) : Walk after now base next base next
  | step {base next base' next' : τ} (hdue : Due now next)
      (hrest : Walk after now next (after next) base' next') : Walk after now base next base' next'

namespace Walk

variable {after : τ → τ} {now base next base' next' : τ}

section

variable (h : Walk after now base next base' next')
include h

theorem unique {other other' : τ} (hother : Walk after now base next other other') :
    base' = other ∧ next' = other' := by
  induction h with
  | stop hstop =>
    cases hother with
    | stop => exact ⟨rfl, rfl⟩
    | step hdue => exact absurd hdue hstop
  | step hdue hrest ih =>
    cases hother with
    | stop hstop => exact absurd hdue hstop
    | step _ hrest' => exact ih hrest'

theorem stopped : ¬ Due now next' := by
  induction h with
  | stop hstop => exact hstop
  | step hdue hrest ih => exact ih

theorem next_eq (hnext : next = after base) : next' = after base' := by
  induction h with
  | stop => exact hnext
  | step hdue hrest ih => exact ih rfl

theorem base_pos (hstart : 0 < base ∨ Due now next) : 0 < base' := by
  induction h with
  | stop hstop =>
    rcases hstart with hbase | hdue
    · exact hbase
    · exact absurd hdue hstop
  | step hdue hrest ih => exact ih (.inl hdue.1)

end

end Walk

end

section

variable {τ : Type u} [Preorder τ] [Zero τ]

theorem Due.mono {now later tick : τ} (h : Due now tick) (hle : now ≤ later) : Due later tick :=
  ⟨h.1, h.2.trans hle⟩

namespace Walk

variable {after : τ → τ} {now later base next base' next' : τ}

theorem onward (h : Walk after now base next base' next') (hle : now ≤ later) {last last' : τ}
    (hlater : Walk after later base next last last') : Walk after later base' next' last last' := by
  induction h with
  | stop => exact hlater
  | step hdue hrest ih =>
    apply ih
    cases hlater with
    | stop hstop => exact absurd (hdue.mono hle) hstop
    | step _ hrest' => exact hrest'

theorem base_le (h : Walk after now base next base' next')
    (hforward : ∀ b, 0 < after b → b < after b) (hnext : next = after base) : base ≤ base' := by
  induction h with
  | stop => exact le_rfl
  | @step base next base' next' hdue hrest ih =>
    have hlater : base < next := by
      rw [hnext] at hdue ⊢
      exact hforward base hdue.1
    exact hlater.le.trans (ih rfl)

end Walk

end

end NewApi.Foundation
