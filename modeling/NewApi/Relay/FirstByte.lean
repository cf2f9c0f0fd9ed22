import NewApi.Foundation.Run

/-!
# The timeout of the first byte

`FirstByteTimeoutController` and `firstByteTimeoutBody` of `relay/common/timeout.go`: the timer's
callback and the reading goroutine take turns in any order.
-/

namespace NewApi.Relay.FirstByte

open Foundation

/-- How far the callback is: it stores the flag, then cancels the context. -/
inductive Callback where
  | waiting
  | begun
  | stored
  | cancelled
  deriving DecidableEq

def Callback.next : Callback → Callback
  | .begun => .stored
  | .stored => .cancelled
  | callback => callback

inductive ReadResult where
  | read (n : Nat) (err : Bool)
  | errStreamFirstByteTimeout
  deriving DecidableEq

/-- `pending` is what the inner `Read` returned, `delivered` that a `Read` returned bytes. -/
structure State where
  armed : Bool
  callback : Callback := .waiting
  pending : Option (Nat × Bool) := none
  delivered : Bool := false

inductive Event where
  | fire
  | callback
  | innerRead (n : Nat) (err : Bool)
  | read
  | close

def State.timeoutTriggered (s : State) : Bool := s.callback = .stored || s.callback = .cancelled

def State.read (s : State) (n : Nat) (err : Bool) : ReadResult :=
  if n > 0 then .read n err
  else if err && s.timeoutTriggered then .errStreamFirstByteTimeout
  else .read n err

def State.returned (s : State) : Event → Option ReadResult
  | .read => s.pending.map fun (n, err) => s.read n err
  | _ => none

def step (s : State) : Event → State
  | .fire => if s.armed then { s with armed := false, callback := .begun } else s
  | .callback => { s with callback := s.callback.next }
  | .innerRead n err => { s with pending := s.pending <|> some (n, err) }
  | .read =>
    match s.pending with
    | none => s
    | some (0, _) => { s with pending := none }
    | some (_, _) => { s with armed := false, pending := none, delivered := true }
  | .close => { s with armed := false }

structure Truthful (s : State) (e : Event) : Prop where
  returned : s.delivered = true → s.returned e ≠ some .errStreamFirstByteTimeout
  context : (step s e).delivered = true → (step s e).callback ≠ .cancelled

/-- The callback has not begun when a read with bytes stops the timer. -/
def InTime (s : State) (e : Event) : Prop :=
  e = .read → (∃ p ∈ s.pending, 0 < p.1) → s.callback = .waiting

def Settled (s : State) : Prop := s.delivered = true → s.armed = false ∧ s.callback = .waiting

theorem Settled.step {s : State} {e : Event} (h : Settled s) (htime : InTime s e) :
    Settled (step s e) := by
  unfold Settled at h ⊢
  cases e with
  | fire =>
    unfold FirstByte.step
    dsimp only
    split
    · next harmed =>
      intro hdelivered
      rw [(h hdelivered).1] at harmed
      cases harmed
    · exact h
  | callback =>
    intro hdelivered
    obtain ⟨harmed, hwaiting⟩ := h hdelivered
    simp [FirstByte.step, harmed, hwaiting, Callback.next]
  | innerRead => exact h
  | read =>
    unfold FirstByte.step
    dsimp only
    split
    · exact h
    · exact h
    · next hbytes hpending =>
      exact fun _ => ⟨rfl, htime rfl ⟨_, hpending, Nat.pos_of_ne_zero hbytes⟩⟩
  | close => exact fun hdelivered => ⟨rfl, (h hdelivered).2⟩

/-- If the callback has not begun when bytes stop the timer, a timeout means that no byte came. -/
theorem timeout_means_no_byte (armed : Bool) (events : List Event)
    (htime : Admits step InTime { armed := armed } events) :
    Admits step Truthful { armed := armed } events := by
  refine Admits.steps Settled (fun s e h htime => ?_) (fun hfalse => by cases hfalse) htime
  have hnext := h.step htime
  refine ⟨hnext, fun hdelivered => ?_, fun hdelivered => ?_⟩
  · have hwaiting := (h hdelivered).2
    cases e <;> simp [State.returned, State.read, State.timeoutTriggered, hwaiting]
  · rw [(hnext hdelivered).2]
    simp

theorem timeout_means_no_byte_eof :
    Admits step Truthful { armed := true }
      [.innerRead 5 false, .read, .fire, .innerRead 0 true, .read] := by
  apply timeout_means_no_byte
  simp [InTime, step]

/-- The timer fires between the first bytes and the call that stops it. -/
theorem timeout_after_bytes :
    let s := run step { armed := true } [.innerRead 5 false, .fire, .read, .callback, .callback,
      .innerRead 0 true]
    s.delivered = true ∧ s.returned .read = some .errStreamFirstByteTimeout ∧
      s.callback = .cancelled := by
  decide

end NewApi.Relay.FirstByte
