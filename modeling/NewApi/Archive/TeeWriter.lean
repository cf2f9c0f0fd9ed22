import NewApi.Foundation.Run

/-!
# The archived response

`TeeWriter` of `service/archive/writer.go`.  The spool directory is what the spool file holds, if
there is one.
-/

namespace NewApi.Archive

open Foundation List

inductive Status where
  | pending
  | skipped
  | failed
  deriving DecidableEq

inductive Reason where
  | responseSizeLimit
  | responseSpoolFailed
  deriving DecidableEq

def Reason.status : Reason → Status
  | .responseSizeLimit => .skipped
  | .responseSpoolFailed => .failed

/-- The writer is disabled once there is a reason; `client` is what the client has got. -/
structure TeeWriter where
  client : List UInt8 := []
  spool : Option (List UInt8)
  maxBytes : Nat
  written : Nat := 0
  hashed : List UInt8 := []
  skipReason : Option Reason := none
  contentType : String := ""

structure WriteCall where
  data : List UInt8
  n : Nat
  contentType : String
  spoolFails : Bool

def WriteCall.accepted (call : WriteCall) : List UInt8 := call.data.take call.n

def newTeeWriter (created : Bool) (maxBytes : Nat) : TeeWriter where
  spool := if created then some [] else none
  maxBytes := maxBytes
  skipReason := if created then none else some .responseSpoolFailed

namespace TeeWriter

def disable (w : TeeWriter) (reason : Reason) : TeeWriter :=
  { w with spool := none, skipReason := some reason }

@[simp] def setContentType (w : TeeWriter) (contentType : String) : TeeWriter :=
  { w with contentType := if w.contentType = "" then contentType else w.contentType }

def capture (w : TeeWriter) (call : WriteCall) : TeeWriter :=
  if w.skipReason.isSome then w
  else
    let w := w.setContentType call.contentType
    let next := w.written + call.accepted.length
    if next > w.maxBytes then w.disable .responseSizeLimit
    else if call.spoolFails then w.disable .responseSpoolFailed
    else
      { w with
        spool := w.spool.map (· ++ call.accepted)
        hashed := w.hashed ++ call.accepted
        written := next }

def write (w : TeeWriter) (call : WriteCall) : TeeWriter :=
  let w' := if call.n > 0 then w.capture call else w
  { w' with client := w.client ++ call.accepted }

end TeeWriter

open TeeWriter

structure ObjectInfo where
  status : Status
  reason : Option Reason
  bytes : Nat
  contentType : String
  sha256 : String

def TeeWriter.finish (sum : List UInt8 → String) (w : TeeWriter) (contentType : String)
    (closeFails : Bool) : ObjectInfo × Option (List UInt8) :=
  let w := w.setContentType contentType
  match w.skipReason with
  | some reason => (⟨reason.status, some reason, w.written, w.contentType, ""⟩, w.spool)
  | none =>
    if closeFails then (⟨.failed, some .responseSpoolFailed, w.written, w.contentType, ""⟩, none)
    else (⟨.pending, none, w.written, w.contentType, sum w.hashed⟩, w.spool)

structure InStep (w : TeeWriter) (calls : List WriteCall) : Prop where
  enabled : w.skipReason = none
  spool : w.spool = some w.client
  written : w.written = w.client.length
  hashed : w.hashed = w.client
  limit : w.client.length ≤ w.maxBytes
  noFault : ∀ call ∈ calls, 0 < call.n → call.spoolFails = false

structure Recorded (w : TeeWriter) (maxBytes : Nat) (calls : List WriteCall) : Prop where
  client : w.client = calls.flatMap WriteCall.accepted
  maxBytes : w.maxBytes = maxBytes
  state : (w.skipReason.isSome = true ∧ w.spool = none) ∨ InStep w calls

theorem Recorded.write {w : TeeWriter} {maxBytes : Nat} {calls : List WriteCall}
    (h : Recorded w maxBytes calls) (call : WriteCall) :
    Recorded (w.write call) maxBytes (calls ++ [call]) := by
  obtain ⟨hclient, hmax, hstate⟩ := h
  have hnew : w.client ++ call.accepted = (calls ++ [call]).flatMap WriteCall.accepted := by
    simp [hclient]
  unfold TeeWriter.write
  by_cases hn : call.n > 0
  · rw [if_pos hn]
    unfold capture
    rcases hstate with ⟨hsome, hnone⟩ | hstep
    · rw [if_pos hsome]
      exact ⟨hnew, hmax, .inl ⟨hsome, hnone⟩⟩
    rw [if_neg (by simp [hstep.enabled])]
    dsimp only
    split
    · exact ⟨hnew, hmax, .inl ⟨rfl, rfl⟩⟩
    next hlimit =>
    split
    · exact ⟨hnew, hmax, .inl ⟨rfl, rfl⟩⟩
    next hfault =>
    refine ⟨hnew, hmax, .inr ⟨hstep.enabled, ?_, ?_, ?_, ?_, ?_⟩⟩
    · simp [hstep.spool]
    · simp [hstep.written]
    · simp [hstep.hashed]
    · simpa [hstep.written] using hlimit
    · simpa [or_imp, forall_and, hn, hfault] using hstep.noFault
  · have hnone : call.accepted = [] := by simp [WriteCall.accepted, Nat.eq_zero_of_not_pos hn]
    rw [if_neg hn, hnone, append_nil]
    refine ⟨by rw [← hnew, hnone, append_nil], hmax, hstate.imp id fun hstep => ?_⟩
    exact { hstep with noFault := by simpa [or_imp, forall_and, hn] using hstep.noFault }

private theorem recorded_run (created : Bool) (maxBytes : Nat) (calls : List WriteCall) :
    Recorded (run TeeWriter.write (newTeeWriter created maxBytes) calls) maxBytes calls := by
  induction calls using List.reverseRecOn with
  | nil =>
    refine ⟨rfl, rfl, ?_⟩
    cases created with
    | false => exact .inl ⟨rfl, rfl⟩
    | true => exact .inr ⟨rfl, rfl, rfl, rfl, Nat.zero_le _, by simp⟩
  | append_singleton calls call ih =>
    rw [run_append]
    exact ih.write call

/-- The client gets what is accepted; a pending object is exactly that, and an object over the limit
or with a fault is not pending and leaves no file. -/
theorem archive_records_response (sum : List UInt8 → String) (created : Bool) (maxBytes : Nat)
    (calls : List WriteCall) (contentType : String) (closeFails : Bool) :
    let w := run TeeWriter.write (newTeeWriter created maxBytes) calls
    let (info, spool) := w.finish sum contentType closeFails
    let accepted := calls.flatMap WriteCall.accepted
    w.client = accepted ∧
      (info.status = .pending → spool = some accepted ∧ info.bytes = accepted.length ∧
        info.bytes ≤ maxBytes ∧ info.sha256 = sum accepted) ∧
      (maxBytes < accepted.length ∨ (∃ call ∈ calls, 0 < call.n ∧ call.spoolFails = true) ∨
        closeFails = true → info.status ≠ .pending ∧ spool = none) := by
  obtain ⟨hclient, hmax, hstate⟩ := recorded_run created maxBytes calls
  generalize run TeeWriter.write (newTeeWriter created maxBytes) calls = w at *
  dsimp only
  rw [← hclient, ← hmax]
  refine ⟨rfl, ?_⟩
  unfold finish
  rcases hstate with ⟨hsome, hnone⟩ | hstep
  · obtain ⟨reason, hreason⟩ := Option.isSome_iff_exists.mp hsome
    cases reason <;> simp [hreason, Reason.status, hnone]
  have hlimit := hstep.limit
  cases closeFails with
  | true => simp [hstep.enabled]
  | false =>
    simp only [setContentType, hstep.enabled, hstep.spool, hstep.written, hstep.hashed]
    refine ⟨fun _ => ⟨rfl, rfl, hlimit, rfl⟩, ?_⟩
    rintro (hover | ⟨call, hcall, hn, hfault⟩ | hfalse)
    · omega
    · rw [hstep.noFault call hcall hn] at hfault
      cases hfault
    · cases hfalse

end NewApi.Archive
