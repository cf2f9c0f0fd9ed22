import Mathlib.Tactic.Common

/-!
# Computations with fuel

A loop that may not end is a function of its fuel, `none` where the fuel does
not suffice.  It returns `a` if some amount of fuel gives `a`.
-/

namespace NewApi.Foundation

open Option

universe u v

variable {α : Type u} {β : Type v}

def Stable (f : Nat → Option α) : Prop := ∀ n a, f n = some a → f (n + 1) = some a

def Returns (f : Nat → Option α) (a : α) : Prop := ∃ n, f n = some a

def Ends (f : Nat → Option α) : Prop := ∃ a, Returns f a

variable {f : Nat → Option α} {a : α} {g : Nat → α → Option β}

theorem Stable.of_le (hf : Stable f) {n m : Nat} (h : f n = some a) (hle : n ≤ m) :
    f m = some a := by
  induction hle with
  | refl => exact h
  | step _ ih => exact hf _ a ih

theorem Stable.const (o : Option α) : Stable fun _ => o := fun _ _ h => h

theorem Stable.bind (hf : Stable f) (hg : ∀ a, Stable (g · a)) :
    Stable fun n => (f n).bind (g n) := by
  intro n b h
  obtain ⟨a, ha, hb⟩ := bind_eq_some_iff.mp h
  exact bind_eq_some_iff.mpr ⟨a, hf n a ha, hg a n b hb⟩

theorem Stable.map (hf : Stable f) (g : α → β) : Stable fun n => (f n).map g := by
  intro n b h
  obtain ⟨a, ha, hb⟩ := map_eq_some_iff.mp h
  exact map_eq_some_iff.mpr ⟨a, hf n a ha, hb⟩

theorem Returns.map (h : Returns f a) (g : α → β) : Returns (fun n => (f n).map g) (g a) := by
  obtain ⟨n, hn⟩ := h
  exact ⟨n, by simp [hn]⟩

theorem Returns.unique (hf : Stable f) {b : α} (ha : Returns f a) (hb : Returns f b) : a = b := by
  obtain ⟨n, hn⟩ := ha
  obtain ⟨m, hm⟩ := hb
  have hna := hf.of_le hn (Nat.le_max_left n m)
  have hmb := hf.of_le hm (Nat.le_max_right n m)
  exact some.inj (hna.symm.trans hmb)

theorem returns_bind_iff (hf : Stable f) (hg : ∀ a, Stable (g · a)) {b : β} :
    Returns (fun n => (f n).bind (g n)) b ↔ ∃ a, Returns f a ∧ Returns (g · a) b := by
  constructor
  · rintro ⟨n, h⟩
    obtain ⟨a, ha, hb⟩ := bind_eq_some_iff.mp h
    exact ⟨a, ⟨n, ha⟩, ⟨n, hb⟩⟩
  · rintro ⟨a, ⟨n, ha⟩, ⟨m, hb⟩⟩
    refine ⟨max n m, bind_eq_some_iff.mpr ⟨a, ?_, ?_⟩⟩
    · exact hf.of_le ha (Nat.le_max_left n m)
    · exact (hg a).of_le hb (Nat.le_max_right n m)

theorem ends_bind_iff (hf : Stable f) (hg : ∀ a, Stable (g · a)) (ha : Returns f a) :
    Ends (fun n => (f n).bind (g n)) ↔ Ends (g · a) := by
  simp only [Ends, returns_bind_iff hf hg]
  constructor
  · rintro ⟨b, a', ha', hb⟩
    obtain rfl := Returns.unique hf ha ha'
    exact ⟨b, hb⟩
  · rintro ⟨b, hb⟩
    exact ⟨b, a, ha, hb⟩

section Loop

variable {σ : Type u}

def loop (body : Nat → σ → Option (σ × Bool)) (fuel : Nat) : Nat → σ → Option σ
  | 0, _ => none
  | rounds + 1, s =>
    (body fuel s).bind fun next =>
      if next.2 = true then loop body fuel rounds next.1 else some next.1

def loopFrom (body : Nat → σ → Option (σ × Bool)) (s : σ) (fuel : Nat) : Option σ :=
  loop body fuel fuel s

variable {body : Nat → σ → Option (σ × Bool)} {fuel rounds : Nat} {s r s' : σ} {P : σ → Prop}

theorem loop_mono (hbody : ∀ s, Stable (body · s)) (h : loop body fuel rounds s = some r) :
    loop body (fuel + 1) rounds s = some r ∧ loop body fuel (rounds + 1) s = some r := by
  induction rounds generalizing s with
  | zero => simp [loop] at h
  | succ rounds ih =>
    obtain ⟨next, hnext, hrest⟩ := bind_eq_some_iff.mp h
    have hmore : body (fuel + 1) s = some next := hbody s fuel next hnext
    cases hagain : next.2 with
    | false =>
      have hstop : next.1 = r := by simpa [hagain] using hrest
      rw [loop, loop, hmore, hnext]
      simp [hagain, hstop]
    | true =>
      obtain ⟨hfuel, hrounds⟩ := ih (by simpa [hagain] using hrest)
      rw [loop, loop, hmore, hnext]
      simp [hagain, hfuel, hrounds]

theorem stable_loopFrom (hbody : ∀ s, Stable (body · s)) (s : σ) : Stable (loopFrom body s) := by
  intro n r h
  exact (loop_mono hbody (loop_mono hbody h).1).2

section

variable (hbody : ∀ s, Stable (body · s))
include hbody

theorem returns_loopFrom_iff :
    Returns (loopFrom body s) r ↔
      ∃ next, Returns (body · s) next ∧
        if next.2 = true then Returns (loopFrom body next.1) r else next.1 = r := by
  constructor
  · rintro ⟨n, h⟩
    cases n with
    | zero => simp [loopFrom, loop] at h
    | succ n =>
      obtain ⟨next, hnext, hrest⟩ := bind_eq_some_iff.mp h
      refine ⟨next, ⟨n + 1, hnext⟩, ?_⟩
      cases hagain : next.2 with
      | false => simpa [hagain] using hrest
      | true =>
        have hrest : loop body (n + 1) n next.1 = some r := by simpa [hagain] using hrest
        exact ⟨n + 1, (loop_mono hbody hrest).2⟩
  · rintro ⟨next, ⟨n, hnext⟩, hrest⟩
    cases hagain : next.2 with
    | false =>
      refine ⟨n + 1, ?_⟩
      have hmore : body (n + 1) s = some next := hbody s n next hnext
      simpa [loopFrom, loop, hmore, hagain] using hrest
    | true =>
      obtain ⟨m, hm⟩ : Returns (loopFrom body next.1) r := by simpa [hagain] using hrest
      -- both the body and the rest of the loop have enough fuel at `max n m + 1`
      have hmore : body (max n m + 1) s = some next := (hbody s).of_le hnext (by omega)
      have hloop : loop body (max n m) (max n m) next.1 = some r :=
        (stable_loopFrom hbody next.1).of_le hm (Nat.le_max_right n m)
      refine ⟨max n m + 1, ?_⟩
      simp [loopFrom, loop, hmore, hagain, (loop_mono hbody hloop).1]

theorem ends_loopFrom_of_stop (h : Returns (body · s) (s', false)) : Ends (loopFrom body s) :=
  ⟨s', (returns_loopFrom_iff hbody).mpr ⟨_, h, rfl⟩⟩

theorem ends_loopFrom_again (h : Returns (body · s) (s', true)) :
    Ends (loopFrom body s) ↔ Ends (loopFrom body s') := by
  constructor
  · rintro ⟨r, hr⟩
    obtain ⟨next, hnext, hrest⟩ := (returns_loopFrom_iff hbody).mp hr
    obtain rfl := Returns.unique (hbody s) h hnext
    exact ⟨r, hrest⟩
  · rintro ⟨r, hr⟩
    exact ⟨r, (returns_loopFrom_iff hbody).mpr ⟨_, h, hr⟩⟩

theorem ends_body_of_ends_loopFrom (h : Ends (loopFrom body s)) : Ends (body · s) := by
  obtain ⟨r, hr⟩ := h
  obtain ⟨next, hnext, -⟩ := (returns_loopFrom_iff hbody).mp hr
  exact ⟨next, hnext⟩

end

theorem not_ends_loopFrom (h : ∀ s, P s → ∀ n next, body n s = some next → next.2 = true ∧ P next.1)
    (hs : P s) : ¬ Ends (loopFrom body s) := by
  have hnone : ∀ fuel rounds s, P s → loop body fuel rounds s = none := by
    intro fuel rounds
    induction rounds with
    | zero => exact fun _ _ => rfl
    | succ rounds ih =>
      intro s hs
      cases hnext : body fuel s with
      | none => simp [loop, hnext]
      | some next =>
        obtain ⟨hagain, hkept⟩ := h s hs fuel next hnext
        simp [loop, hnext, hagain, ih next.1 hkept]
  rintro ⟨r, n, hn⟩
  simp [loopFrom, hnone n n s hs] at hn

/-- A loop ends if each round does and lowers a measure unless it is the last. -/
theorem ends_loopFrom_of_measure (hbody : ∀ s, Stable (body · s)) (μ : σ → Nat)
    (h : ∀ s, ∃ next, Returns (body · s) next ∧ (next.2 = true → μ next.1 < μ s)) (s : σ) :
    Ends (loopFrom body s) := by
  induction hμ : μ s using Nat.strongRecOn generalizing s with
  | ind m ih =>
    obtain ⟨⟨s', again⟩, hnext, hless⟩ := h s
    cases again with
    | false => exact ends_loopFrom_of_stop hbody hnext
    | true =>
      rw [ends_loopFrom_again hbody hnext]
      exact ih (μ s') (hμ ▸ hless rfl) s' rfl

/-- A loop whose rounds keep `P` and lower a measure ends within that many rounds, in a
state that its last round puts in `Q`. -/
theorem loop_returns_of_measure {Q : σ → Prop} (μ : σ → Nat)
    (h : ∀ s, P s → ∃ next, body fuel s = some next ∧
      if next.2 = true then P next.1 ∧ μ next.1 < μ s else Q next.1) (hs : P s)
    (hrounds : μ s < rounds) : ∃ r, loop body fuel rounds s = some r ∧ Q r := by
  induction rounds generalizing s with
  | zero => exact absurd hrounds (Nat.not_lt_zero _)
  | succ rounds ih =>
    obtain ⟨⟨s', again⟩, hnext, hkept⟩ := h s hs
    cases again with
    | false => exact ⟨s', by simp [loop, hnext], hkept⟩
    | true =>
      obtain ⟨hs', hless⟩ : P s' ∧ μ s' < μ s := hkept
      obtain ⟨r, hr, hQ⟩ := ih hs' (by omega)
      exact ⟨r, by simpa [loop, hnext] using hr, hQ⟩

theorem ends_loopFrom_iff_of_simulation {τ : Type v} {body' : Nat → τ → Option (τ × Bool)}
    (hbody : ∀ s, Stable (body · s)) (hbody' : ∀ t, Stable (body' · t)) (abs : σ → τ)
    (h : ∀ s next, Returns (body · s) next → Returns (body' · (abs s)) (abs next.1, next.2))
    (hends : ∀ s, Ends (body' · (abs s)) → Ends (body · s)) (s : σ) :
    Ends (loopFrom body s) ↔ Ends (loopFrom body' (abs s)) := by
  constructor
  · rintro ⟨r, n, hn⟩
    have hloop : ∀ rounds s, loop body n rounds s = some r → Ends (loopFrom body' (abs s)) := by
      intro rounds
      induction rounds with
      | zero => simp [loop]
      | succ rounds ih =>
        intro s hs
        obtain ⟨⟨s', again⟩, hnext, hrest⟩ := bind_eq_some_iff.mp hs
        have hround := h s (s', again) ⟨n, hnext⟩
        cases again with
        | false => exact ends_loopFrom_of_stop hbody' hround
        | true => exact (ends_loopFrom_again hbody' hround).mpr (ih s' hrest)
    exact hloop n s hn
  · rintro ⟨r, n, hn⟩
    have hloop : ∀ rounds s, loop body' n rounds (abs s) = some r → Ends (loopFrom body s) := by
      intro rounds
      induction rounds with
      | zero => simp [loop]
      | succ rounds ih =>
        intro s hs
        obtain ⟨next', hnext', hrest⟩ := bind_eq_some_iff.mp hs
        obtain ⟨⟨s', again⟩, hnext⟩ := hends s ⟨next', n, hnext'⟩
        obtain rfl := Returns.unique (hbody' _) ⟨n, hnext'⟩ (h s (s', again) hnext)
        cases again with
        | false => exact ends_loopFrom_of_stop hbody hnext
        | true => exact (ends_loopFrom_again hbody hnext).mpr (ih s' hrest)
    exact hloop n s hn

end Loop

end NewApi.Foundation
