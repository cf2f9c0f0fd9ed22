import Mathlib.Data.List.Induction
import Mathlib.Logic.Relation

/-!
# Runs of an event-driven machine

A machine is a total transition function `step : σ → ε → σ`; every choice the
environment makes (a fault, an upstream answer, the order of two processes) is
carried by the event.  A run is a list of events.  Safety properties are
proved once per step and lifted to runs by the rules of this file.
-/

namespace NewApi.Foundation

open Relation

universe u v w

section Runs

variable {σ : Type u} {ε : Type v}

def run (step : σ → ε → σ) (s : σ) (events : List ε) : σ := events.foldl step s

@[simp] theorem run_nil (step : σ → ε → σ) (s : σ) : run step s [] = s := rfl

@[simp] theorem run_cons (step : σ → ε → σ) (s : σ) (e : ε) (events : List ε) :
    run step s (e :: events) = run step (step s e) events := rfl

@[simp] theorem run_append (step : σ → ε → σ) (s : σ) (first second : List ε) :
    run step s (first ++ second) = run step (run step s first) second := List.foldl_append

/--
Every event of the run is admitted by the state it is taken in.  Side
conditions on schedules, faults and inputs are stated with this predicate.
-/
def Admits (step : σ → ε → σ) (ok : σ → ε → Prop) : σ → List ε → Prop
  | _, [] => True
  | s, e :: events => ok s e ∧ Admits step ok (step s e) events

instance decidableAdmits (step : σ → ε → σ) (ok : σ → ε → Prop)
    [∀ s e, Decidable (ok s e)] :
    ∀ (s : σ) (events : List ε), Decidable (Admits step ok s events)
  | _, [] => isTrue trivial
  | s, e :: events =>
    have := decidableAdmits step ok (step s e) events
    inferInstanceAs (Decidable (ok s e ∧ Admits step ok (step s e) events))

@[simp] theorem admits_nil (step : σ → ε → σ) (ok : σ → ε → Prop) (s : σ) :
    Admits step ok s [] := trivial

@[simp] theorem admits_cons (step : σ → ε → σ) (ok : σ → ε → Prop) (s : σ) (e : ε)
    (events : List ε) :
    Admits step ok s (e :: events) ↔ ok s e ∧ Admits step ok (step s e) events := Iff.rfl

theorem admits_append (step : σ → ε → σ) (ok : σ → ε → Prop) (s : σ) (first second : List ε) :
    Admits step ok s (first ++ second) ↔
      Admits step ok s first ∧ Admits step ok (run step s first) second := by
  induction first generalizing s with
  | nil => simp
  | cons e first ih => simp [ih, and_assoc]

theorem admits_of_forall {step : σ → ε → σ} {ok : σ → ε → Prop} (h : ∀ s e, ok s e)
    (s : σ) (events : List ε) : Admits step ok s events := by
  induction events generalizing s with
  | nil => trivial
  | cons e events ih => exact ⟨h s e, ih (step s e)⟩

theorem admits_iff_forall_split (step : σ → ε → σ) (ok : σ → ε → Prop) (s : σ) (events : List ε) :
    Admits step ok s events ↔
      ∀ before e after, events = before ++ e :: after → ok (run step s before) e := by
  constructor
  · rintro h before e after rfl
    exact ((admits_append ..).mp h).2.1
  · intro h
    induction events generalizing s with
    | nil => trivial
    | cons e events ih =>
      refine ⟨h [] e events rfl, ih (step s e) ?_⟩
      rintro before e' after rfl
      exact h (e :: before) e' after rfl

variable {s : σ} {events : List ε} {p : σ → ε → Prop}
variable {step : σ → ε → σ} {ok : σ → ε → Prop}

theorem Admits.relates {R : σ → σ → Prop} (hrefl : ∀ s, R s s)
    (htrans : ∀ a b c, R a b → R b c → R a c)
    (h : Admits step (fun s e => R s (step s e)) s events) : R s (run step s events) := by
  induction events generalizing s with
  | nil => exact hrefl s
  | cons e events ih => exact htrans _ _ _ h.1 (ih h.2)

/-- The invariant rule: what every admitted step preserves, every run does. -/
theorem Admits.invariant (Inv : σ → Prop) (hstep : ∀ s e, Inv s → ok s e → Inv (step s e))
    (hinit : Inv s) (h : Admits step ok s events) : Inv (run step s events) := by
  induction events generalizing s with
  | nil => exact hinit
  | cons e events ih => exact ih (hstep s e hinit h.1) h.2

theorem run_invariant {Inv : σ → Prop} (hstep : ∀ s e, Inv s → Inv (step s e)) (hinit : Inv s)
    (events : List ε) : Inv (run step s events) := by
  induction events generalizing s with
  | nil => exact hinit
  | cons e events ih => exact ih (hstep s e hinit)

/-- Two machines that a relation joins step by step are joined after every run. -/
theorem run_simulates {τ : Type*} {step' : τ → ε → τ} {R : σ → τ → Prop}
    (hstep : ∀ s t, ∀ e ∈ events, R s t → R (step s e) (step' t e)) {t : τ}
    (hinit : R s t) : R (run step s events) (run step' t events) := by
  induction events generalizing s t with
  | nil => exact hinit
  | cons e events ih =>
    exact ih (fun s t e he => hstep s t e (.tail _ he)) (hstep s t e (.head _) hinit)

/--
A run in which every step meets `ok` satisfies the step property `P` at every
step, provided an invariant makes `ok` imply `P`.
-/
theorem Admits.steps {P : σ → ε → Prop} (Inv : σ → Prop)
    (hstep : ∀ s e, Inv s → ok s e → Inv (step s e) ∧ P s e) (hinit : Inv s)
    (h : Admits step ok s events) : Admits step P s events := by
  induction events generalizing s with
  | nil => trivial
  | cons e events ih =>
    obtain ⟨hinv, hp⟩ := hstep s e hinit h.1
    exact ⟨hp, ih hinv h.2⟩

/--
If admitted steps keep an invariant that implies the law, and a step that is
not admitted breaks the law at once, then a run is lawful throughout exactly
when all its steps are admitted.
-/
theorem forall_prefix_iff_admits {Inv Law : σ → Prop} {side : σ → ε → Prop}
    (hlaw : ∀ s, Inv s → Law s) (hkeep : ∀ s e, Inv s → side s e → ok s e → Inv (step s e))
    (hbreak : ∀ s e, Inv s → side s e → Law (step s e) → ok s e) (hinit : Inv s)
    (hside : Admits step side s events) :
    (∀ before after, events = before ++ after → Law (run step s before)) ↔
      Admits step ok s events := by
  induction events generalizing s with
  | nil =>
    refine iff_of_true ?_ trivial
    intro before after h
    obtain ⟨rfl, -⟩ := List.append_eq_nil_iff.mp h.symm
    exact hlaw s hinit
  | cons e events ih =>
    constructor
    · intro h
      have hok := hbreak s e hinit hside.1 (h [e] events rfl)
      refine ⟨hok, (ih (hkeep s e hinit hside.1 hok) hside.2).mp ?_⟩
      rintro before after rfl
      exact h (e :: before) after rfl
    · rintro ⟨hok, hrest⟩ before after h
      cases before with
      | nil => exact hlaw s hinit
      | cons e' before =>
        cases h
        exact (ih (hkeep s e hinit hside.1 hok) hside.2).mpr hrest before after rfl

def Happened (step : σ → ε → σ) (p : σ → ε → Prop) (s : σ) (events : List ε) : Prop :=
  ∃ before e after, events = before ++ e :: after ∧ p (run step s before) e

theorem Happened.snoc (h : Happened step p s events) (e : ε) :
    Happened step p s (events ++ [e]) := by
  obtain ⟨before, e', after, rfl, hp⟩ := h
  exact ⟨before, e', after ++ [e], by simp, hp⟩

theorem happened_last {e : ε} (h : p (run step s events) e) : Happened step p s (events ++ [e]) :=
  ⟨events, e, [], rfl, h⟩

end Runs

/-!
## What every run reaches

Steps without labels, as of goroutines that a scheduler interleaves in any order.
A step of the relation `own` is taken sooner or later if nothing else is; the other
steps of `next` come from outside, and a run may do without them.  A goal is
inevitable if every run meets it, and a state without an own step is stuck.
-/

section Reached

variable {σ : Type u} {next own : σ → σ → Prop} {goal inv : σ → Prop} {s t : σ}

inductive Inevitable (next own : σ → σ → Prop) (goal : σ → Prop) : σ → Prop
  | now {s : σ} (h : goal s) : Inevitable next own goal s
  | later {s : σ} (hown : ∃ s', own s s')
      (h : ∀ s', next s s' → Inevitable next own goal s') : Inevitable next own goal s

def Stuck (own : σ → σ → Prop) (s : σ) : Prop := ∀ s', ¬ own s s'

theorem inevitable_of_measure (measure : σ → Nat)
    (hless : ∀ s s', next s s' → measure s' < measure s) (hinv : ∀ s s', inv s → next s s' → inv s')
    (hstuck : ∀ s, inv s → Stuck own s → goal s) (hs : inv s) : Inevitable next own goal s := by
  generalize hn : measure s = n
  induction n using Nat.strongRecOn generalizing s with
  | ind n ih =>
    by_cases hown : ∃ s', own s s'
    · apply Inevitable.later hown
      intro s' hs'
      apply ih (measure s') _ (hinv s s' hs hs') rfl
      rw [← hn]
      exact hless s s' hs'
    · apply Inevitable.now
      apply hstuck s hs
      intro s' hs'
      exact hown ⟨s', hs'⟩

theorem not_inevitable_of_stuck (hstuck : Stuck own s) (hgoal : ¬ goal s) :
    ¬ Inevitable next own goal s := by
  intro h
  cases h with
  | now h => exact hgoal h
  | later hown =>
    obtain ⟨s', hs'⟩ := hown
    exact hstuck s' hs'

theorem Inevitable.exists_reached (hsub : ∀ s s', own s s' → next s s')
    (h : Inevitable next own goal s) : ∃ t, ReflTransGen next s t ∧ goal t := by
  induction h with
  | now h => exact ⟨_, .refl, h⟩
  | later hown _ ih =>
    obtain ⟨s', hs'⟩ := hown
    obtain ⟨t, ht, hgoal⟩ := ih s' (hsub _ _ hs')
    exact ⟨t, .head (hsub _ _ hs') ht, hgoal⟩

end Reached

/-!
## Transactions under read committed isolation

A transaction reads what is committed at each of its reads and publishes its writes when it
commits.  What it has checked may no longer hold then.  If it still holds at every commit, the
transactions keep what they keep one after another.
-/

/-- `read` and `next` are the reads with their checks, `none` if one fails; `write` is what a
transaction that is `ready` publishes. -/
structure TxProtocol (α : Type u) (σ : Type v) (τ : Type w) where
  read : α → σ → Option τ
  next : τ → σ → Option τ
  ready : τ → Bool
  write : τ → σ → σ

structure TxWorld (σ : Type v) (τ : Type w) where
  db : σ
  txs : Nat → Option τ := fun _ => none
  log : List τ := []

inductive TxEvent (α : Type u) where
  | read (i : Nat) (a : α)
  | next (i : Nat)
  | commit (i : Nat)
  | rollback (i : Nat)

namespace TxProtocol

variable {α : Type u} {σ : Type v} {τ : Type w} (p : TxProtocol α σ τ)

def step (s : TxWorld σ τ) : TxEvent α → TxWorld σ τ
  | .read i a =>
    if (s.txs i).isSome then s else { s with txs := Function.update s.txs i (p.read a s.db) }
  | .next i => { s with txs := Function.update s.txs i ((s.txs i).bind fun t => p.next t s.db) }
  | .commit i =>
    match s.txs i with
    | some t =>
      if p.ready t then
        { db := p.write t s.db, txs := Function.update s.txs i none, log := s.log ++ [t] }
      else s
    | none => s
  | .rollback i => { s with txs := Function.update s.txs i none }

/-- A transaction that commits passes `check` on what is committed. -/
def CommitsValid (check : τ → σ → Prop) (s : TxWorld σ τ) : TxEvent α → Prop
  | .commit i =>
    match s.txs i with
    | some t => p.ready t = true → check t s.db
    | none => True
  | _ => True

instance (check : τ → σ → Prop) [∀ t db, Decidable (check t db)] (s : TxWorld σ τ)
    (e : TxEvent α) : Decidable (p.CommitsValid check s e) := by
  unfold CommitsValid
  split
  · split <;> infer_instance
  · infer_instance

variable {p} {check : τ → σ → Prop}

theorem invariant {I : σ → List τ → Prop}
    (hcommit : ∀ db log t, I db log → p.ready t = true → check t db → I (p.write t db) (log ++ [t]))
    {s : TxWorld σ τ} (hinit : I s.db s.log) {events : List (TxEvent α)}
    (h : Admits p.step (p.CommitsValid check) s events) :
    I (run p.step s events).db (run p.step s events).log := by
  apply Admits.invariant (fun s => I s.db s.log) _ hinit h
  intro s e hs hvalid
  cases e with
  | read =>
    dsimp only [step]
    split <;> exact hs
  | commit i =>
    dsimp only [step]
    dsimp only [CommitsValid] at hvalid
    cases htx : s.txs i with
    | none => exact hs
    | some t =>
      rw [htx] at hvalid
      by_cases hready : p.ready t = true
      · simpa [hready] using hcommit s.db s.log t hs hready (hvalid hready)
      · simpa [hready] using hs
  | _ => exact hs

end TxProtocol

end NewApi.Foundation
