import NewApi.Foundation.Run
import NewApi.Pricing.TextQuota

/-!
# What an attempt leaves to the next one

All attempts of a request share one `RelayInfo`.  The size of the body, the
conversions and the format of the answer are written by some attempts and never
reset.
-/

namespace NewApi.Relay

open Foundation Pricing Dto

inductive Handler where
  | text | claude | gemini | responses | rerank | embedding
  deriving DecidableEq

/-- The client's body as it came or a converted one, both in a reader without a length. -/
inductive RequestBody where
  | passThrough
  | converted (bytes : Nat)

section

variable (handler : Handler) (client : Nat)

def RequestBody.size : RequestBody → Nat
  | .passThrough => client
  | .converted bytes => bytes

/-- Only one handler records the size of a body that it passes through. -/
def RequestBody.recorded : RequestBody → Bool
  | .passThrough => handler = .claude
  | .converted _ => true

def recordSize (upstreamRequestBodySize : Nat) (body : RequestBody) : Nat :=
  if body.recorded handler = true then body.size client else upstreamRequestBodySize

def applyUpstreamContentLength (upstreamRequestBodySize contentLength : Nat) : Nat :=
  if 0 < upstreamRequestBodySize ∧ contentLength = 0 then upstreamRequestBodySize
  else contentLength

abbrev Declares (size : Nat) (body : RequestBody) : Prop :=
  applyUpstreamContentLength (recordSize handler client size body) 0 ∈ [0, body.size client]

variable {handler client}

theorem declares_iff {size : Nat} {body : RequestBody} :
    Declares handler client size body ↔
      recordSize handler client size body = 0 ∨
        recordSize handler client size body = body.size client := by
  have hlength (n : Nat) : applyUpstreamContentLength n 0 = n := by
    unfold applyUpstreamContentLength
    split <;> omega
  simp [Declares, hlength]

private theorem declares_of_pairwise {bodies : List RequestBody} {size : Nat}
    (hsize : ∀ b ∈ bodies, b.recorded handler = true ∨ size = 0 ∨ size = b.size client)
    (h : bodies.Pairwise fun a b => a.recorded handler = true →
      b.recorded handler = true ∨ a.size client = b.size client) :
    Admits (recordSize handler client) (Declares handler client) size bodies := by
  induction h generalizing size with
  | nil => trivial
  | @cons a bodies hhead _ ih =>
    by_cases ha : a.recorded handler = true
    · have hrecord : recordSize handler client size a = a.size client := if_pos ha
      refine ⟨declares_iff.mpr (Or.inr hrecord), ih ?_⟩
      rw [hrecord]
      exact fun b hb => (hhead b hb ha).imp_right Or.inr
    · have hrecord : recordSize handler client size a = size := if_neg ha
      refine ⟨declares_iff.mpr ?_, ih ?_⟩ <;> rw [hrecord]
      · exact (hsize a List.mem_cons_self).resolve_left ha
      · exact fun b hb => hsize b (List.mem_cons_of_mem a hb)

end

/-- The declared length is right if a body whose size is not recorded only follows bodies of the
same size. -/
theorem contentLength_eq_size (handler : Handler) (client : Nat) (bodies : List RequestBody)
    (h : bodies.Pairwise fun a b => a.recorded handler = true →
      b.recorded handler = true ∨ a.size client = b.size client) :
    Admits (recordSize handler client) (Declares handler client) 0 bodies :=
  declares_of_pairwise (fun _ _ => Or.inr (Or.inl rfl)) h

theorem contentLength_eq_size_claude :
    Admits (recordSize .claude 7) (Declares .claude 7) 0 [.converted 9, .passThrough] :=
  contentLength_eq_size .claude 7 _ (by decide)

theorem contentLength_stale :
    ¬ Admits (recordSize .text 7) (Declares .text 7) 0 [.converted 9, .passThrough] := by decide

/-- A channel of the adaptor for Claude, or one with a format of its own. -/
inductive Upstream where
  | claude
  | compatible (target : RelayFormat)

def Upstream.format : Upstream → RelayFormat
  | .claude => .claude
  | .compatible target => target

/-- One attempt; `answered` if there was a response for `DoResponse`. -/
structure Sending where
  upstream : Upstream
  passThrough : Bool
  answered : Bool

def Sending.sent (client : RelayFormat) (a : Sending) : RelayFormat :=
  if a.passThrough = true then client else a.upstream.format

section

variable (info : TextRelayInfo)

def appendRequestConversion (format : RelayFormat) : TextRelayInfo :=
  if info.requestConversionChain.getLast? = some format then info
  else { info with requestConversionChain := info.requestConversionChain ++ [format] }

def doResponse : Upstream → TextRelayInfo
  | .claude => { info with finalRequestRelayFormat := some .claude }
  | .compatible _ => info

def send (a : Sending) : TextRelayInfo :=
  let info := if a.passThrough = true then info else appendRequestConversion info a.upstream.format
  if a.answered = true then doResponse info a.upstream else info

def initRequestConversionChain : TextRelayInfo :=
  { info with finalRequestRelayFormat := none, requestConversionChain := [info.relayFormat] }

end

/-- An earlier attempt leaves nothing that `last` would be taken for. -/
def Harmless (client : RelayFormat) (last a : Sending) : Prop :=
  (a.upstream = .claude → a.answered = true → last.sent client = .claude) ∧
    (last.passThrough = true → a.sent client = client)

section

variable {client : RelayFormat} {last a : Sending} {info : TextRelayInfo}

structure Ready (client : RelayFormat) (last : Sending) (info : TextRelayInfo) : Prop where
  final : info.finalRequestRelayFormat = none ∨
    info.finalRequestRelayFormat = some .claude ∧ last.sent client = .claude
  chain : last.passThrough = true → info.requestConversionChain.getLast? = some client

theorem append_spec (format : RelayFormat) :
    (appendRequestConversion info format).requestConversionChain.getLast? = some format ∧
      (appendRequestConversion info format).finalRequestRelayFormat =
        info.finalRequestRelayFormat := by
  unfold appendRequestConversion
  split
  · next hlast => exact ⟨hlast, rfl⟩
  · exact ⟨List.getLast?_concat, rfl⟩

theorem final_send :
    (send info a).finalRequestRelayFormat = info.finalRequestRelayFormat ∨
      (a.upstream = .claude ∧ a.answered = true) ∧
        (send info a).finalRequestRelayFormat = some .claude := by
  rcases a with ⟨_ | target, _ | _, _ | _⟩
  case claude.false.true | claude.true.true => exact Or.inr ⟨⟨rfl, rfl⟩, rfl⟩
  case claude.true.false | compatible.true.false | compatible.true.true => exact Or.inl rfl
  all_goals exact Or.inl (append_spec _).2

theorem chain_send (h : a.passThrough = true → info.requestConversionChain.getLast? = some client) :
    (send info a).requestConversionChain.getLast? = some (a.sent client) := by
  rcases a with ⟨_ | target, _ | _, _ | _⟩
  case claude.true.false | claude.true.true | compatible.true.false | compatible.true.true =>
    exact h rfl
  all_goals exact (append_spec _).1

private theorem ready_send (h : Ready client last info) (ha : Harmless client last a) :
    Ready client last (send info a) where
  final := by
    rcases final_send with heq | ⟨⟨hclaude, hanswered⟩, heq⟩
    · rw [heq]
      exact h.final
    · exact Or.inr ⟨heq, ha.1 hclaude hanswered⟩
  chain hpass := by
    rw [chain_send fun _ => h.chain hpass, ha.2 hpass]

private theorem ready_semantic (h : Ready client last info)
    (hown : last.upstream = .claude → last.sent client = .claude) {usage : Option Usage}
    (husage : ∀ u ∈ usage, u.usageSemantic = "") :
    usageSemanticFromUsage (send info last) usage = "anthropic" ↔ last.sent client = .claude := by
  have hsemantic : usageSemanticFromUsage (send info last) usage =
      if (send info last).getFinalRequestRelayFormat = .claude then "anthropic" else "openai" := by
    cases usage with
    | none => rfl
    | some u => simp [usageSemanticFromUsage, husage u rfl]
  have hformat : (send info last).getFinalRequestRelayFormat = .claude ↔
      last.sent client = .claude := by
    unfold TextRelayInfo.getFinalRequestRelayFormat
    rw [chain_send h.chain]
    rcases final_send with heq | ⟨⟨hclaude, -⟩, heq⟩
    · rcases h.final with hnone | ⟨hsome, hsent⟩
      · rw [heq, hnone]
        exact Iff.rfl
      · rw [heq, hsome]
        exact iff_of_true rfl hsent
    · rw [heq]
      exact iff_of_true rfl (hown hclaude)
  rw [hsemantic, ← hformat]
  split <;> simp_all

end

/-- The answering attempt decides if it is not taken for what an earlier one has left, and if the
adaptor for Claude is not handed another format. -/
theorem semantic_of_answering (info : TextRelayInfo) (earlier : List Sending) (last : Sending)
    (usage : Option Usage) (husage : ∀ u ∈ usage, u.usageSemantic = "")
    (hown : last.upstream = .claude → last.sent info.relayFormat = .claude)
    (hearlier : ∀ a ∈ earlier, Harmless info.relayFormat last a) :
    usageSemanticFromUsage (run send (initRequestConversionChain info) (earlier ++ [last])) usage =
      "anthropic" ↔ last.sent info.relayFormat = .claude := by
  rw [run_append]
  refine ready_semantic ?_ hown husage
  have hinit : Ready info.relayFormat last (initRequestConversionChain info) :=
    ⟨Or.inl rfl, fun _ => rfl⟩
  generalize initRequestConversionChain info = start at hinit ⊢
  induction earlier generalizing start with
  | nil => exact hinit
  | cons a earlier ih =>
    exact ih (fun b hb => hearlier b (List.mem_cons_of_mem a hb)) _
      (ready_send hinit (hearlier a List.mem_cons_self))

def chatInfo : TextRelayInfo where
  originModelName := "m"
  priceData := {}

theorem semantic_of_answering_second :
    usageSemanticFromUsage (run send (initRequestConversionChain chatInfo)
      [⟨.claude, false, false⟩, ⟨.compatible .openAI, false, true⟩]) none = "anthropic" ↔
        RelayFormat.openAI = .claude :=
  semantic_of_answering chatInfo [⟨.claude, false, false⟩] ⟨.compatible .openAI, false, true⟩ none
    (by simp) (by simp) (by simp [Harmless])

theorem semantic_sticky :
    usageSemanticFromUsage (run send (initRequestConversionChain chatInfo)
      [⟨.claude, false, true⟩, ⟨.compatible .openAI, false, true⟩]) none = "anthropic" := by
  decide

end NewApi.Relay
