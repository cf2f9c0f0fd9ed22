import Mathlib.Data.List.Zip
import NewApi.Dto.ChatStream
import NewApi.Foundation.Emit
import NewApi.Foundation.GoString
import NewApi.Foundation.Joins

/-!
# Responses answers for chat clients

`ResponsesResponseToChatCompletionsResponse` of `service/openaicompat` and
`OaiResponsesToChatStreamHandler` of `relay/channel/openai/chat_via_responses.go`.
-/

namespace NewApi.OpenAICompat

open Foundation List Dto Emitter Function

/-! ## The answer as a whole -/

inductive OutputType where
  | message
  | functionCall
  | reasoning
  deriving DecidableEq

inductive OutputContentType where
  | outputText
  | other
  deriving DecidableEq

structure ResponsesOutputContent where
  type : OutputContentType
  text : String

structure ResponsesOutput where
  type : OutputType
  id : String := ""
  role : String := ""
  content : List ResponsesOutputContent := []
  callId : String := ""
  name : String := ""
  arguments : String := ""

structure ResponsesResponse where
  model : String
  output : List ResponsesOutput

structure ChatResponse where
  id : String
  model : String
  content : String
  toolCalls : List ToolCall
  finishReason : String

section

variable (out : ResponsesOutput)

def ResponsesOutput.assistantTexts : List String :=
  if out.type ≠ .message then []
  else if out.role ≠ "" ∧ out.role ≠ "assistant" then []
  else (out.content.filter fun c => c.type = .outputText).map ResponsesOutputContent.text

def ResponsesOutput.texts : List String := out.content.map ResponsesOutputContent.text

def extractOutputTextFromResponses (resp : ResponsesResponse) : String :=
  let text := String.join (resp.output.flatMap ResponsesOutput.assistantTexts)
  if text ≠ "" then text else String.join (resp.output.flatMap ResponsesOutput.texts)

def ResponsesOutput.callKey : String :=
  if trimSpace out.callId = "" then trimSpace out.id else trimSpace out.callId

def ResponsesOutput.toolCall : List ToolCall :=
  if out.type ≠ .functionCall then []
  else if trimSpace out.name = "" then []
  else [⟨out.callKey, trimSpace out.name, out.arguments⟩]

end

def responsesResponseToChatCompletionsResponse (resp : ResponsesResponse) (id : String) :
    ChatResponse :=
  let text := extractOutputTextFromResponses resp
  let toolCalls := if text = "" then resp.output.flatMap ResponsesOutput.toolCall else []
  { id := id
    model := resp.model
    content := if toolCalls ≠ [] then "" else text
    toolCalls := toolCalls
    finishReason := if toolCalls ≠ [] then "tool_calls" else "stop" }

/-! ## The stream handler -/

inductive ResponsesEvent where
  | created (model : String)
  | reasoningSummaryTextDelta (delta : String)
  | reasoningSummaryTextDone
  | outputTextDelta (delta : String)
  | outputItem (item : Option ResponsesOutput)
  | functionCallArgumentsDelta (itemID delta : String)
  | completed (model : String)
  | failed
  | other

/-- The variables of the handler.  The keys of `toolCallIndexByID` are listed in
the order of their indices. -/
structure HandlerState where
  model : String
  outputText : String := ""
  sentStart : Bool := false
  sentStop : Bool := false
  sawToolCall : Bool := false
  streamErr : Bool := false
  toolCallIndexByID : List String := []
  toolCallNameByID : String → String := fun _ => ""
  toolCallArgsByID : String → String := fun _ => ""
  toolCallNameSent : String → Bool := fun _ => false
  toolCallCanonicalIDByItemID : String → String := fun _ => ""
  hasSentReasoningSummary : Bool := false
  needsReasoningSummarySeparator : Bool := false

open HandlerState

section

variable (responseId : String) (s : HandlerState)

def HandlerState.chunk (choice : StreamChoice) : StreamResponse :=
  { id := responseId, model := s.model, choices := [choice] }

def sendStartIfNeeded : Emitter HandlerState StreamResponse := fun s =>
  if s.sentStart then ([], s)
  else ([s.chunk responseId { delta := { content := some "" } }], { s with sentStart := true })

def sendDelta (delta : StreamDelta) : Emitter HandlerState StreamResponse :=
  emit fun s => [s.chunk responseId { delta := delta }]

def sendStarted (delta : StreamDelta) : Emitter HandlerState StreamResponse :=
  (sendStartIfNeeded responseId).andThen (sendDelta responseId delta)

def separated (delta : String) : String :=
  if s.needsReasoningSummarySeparator then
    if hasPrefix delta "\n\n" then delta
    else if hasPrefix delta "\n" then "\n" ++ delta
    else "\n\n" ++ delta
  else delta

def sendReasoningSummaryDelta (delta : String) : Emitter HandlerState StreamResponse := fun s =>
  if delta = "" then ([], s)
  else
    sendStarted responseId { reasoningContent := some (separated s delta) }
      { s with needsReasoningSummarySeparator := false, hasSentReasoningSummary := true }

def sendOutputText (delta : String) : Emitter HandlerState StreamResponse :=
  (sendStartIfNeeded responseId).andThen fun s =>
    if delta = "" then ([], s)
    else
      sendDelta responseId { content := some delta } { s with outputText := s.outputText ++ delta }

def HandlerState.indexed (callID : String) : List String :=
  if callID ∈ s.toolCallIndexByID then s.toolCallIndexByID else s.toolCallIndexByID ++ [callID]

/-- Nothing is sent for a call without id, and nothing after a text. -/
def sendToolCallDelta (callID name argsDelta : String) : Emitter HandlerState StreamResponse :=
  fun s =>
    if callID = "" then ([], s)
    else if s.outputText ≠ "" then ([], s)
    else
      let nameByID :=
        if name ≠ "" then update s.toolCallNameByID callID name else s.toolCallNameByID
      let name := if nameByID callID ≠ "" then nameByID callID else name
      let newName := if s.toolCallNameSent callID then "" else name
      let idx := (s.indexed callID).idxOf callID
      sendStarted responseId { toolCalls := [(idx, ⟨callID, newName, argsDelta⟩)] }
        { s with
          toolCallIndexByID := s.indexed callID
          toolCallNameByID := nameByID
          toolCallNameSent :=
            if newName ≠ "" then update s.toolCallNameSent callID true
            else s.toolCallNameSent
          sawToolCall := true }

/-- What the arguments of an item add to those already seen. -/
def argsDelta (newArgs prevArgs : String) : String :=
  if newArgs = "" then ""
  else if hasPrefix newArgs prevArgs then
    String.ofList (newArgs.toList.drop prevArgs.toList.length)
  else newArgs

def HandlerState.note (item : ResponsesOutput) : HandlerState :=
  { s with
    toolCallCanonicalIDByItemID :=
      if trimSpace item.id ≠ "" ∧ item.callKey ≠ "" then
        update s.toolCallCanonicalIDByItemID (trimSpace item.id) item.callKey
      else s.toolCallCanonicalIDByItemID
    toolCallNameByID :=
      if trimSpace item.name ≠ "" then
        update s.toolCallNameByID item.callKey (trimSpace item.name)
      else s.toolCallNameByID
    toolCallArgsByID :=
      if item.arguments ≠ "" then
        update s.toolCallArgsByID item.callKey item.arguments
      else s.toolCallArgsByID }

def functionCallItem (item : ResponsesOutput) : Emitter HandlerState StreamResponse := fun s =>
  sendToolCallDelta responseId item.callKey (trimSpace item.name)
    (argsDelta item.arguments (s.toolCallArgsByID item.callKey)) (s.note item)

def HandlerState.canonicalID (itemID : String) : String :=
  if s.toolCallCanonicalIDByItemID itemID = "" then itemID
  else s.toolCallCanonicalIDByItemID itemID

def HandlerState.addArgs (callID delta : String) : HandlerState :=
  { s with
    toolCallArgsByID := update s.toolCallArgsByID callID (s.toolCallArgsByID callID ++ delta) }

def functionCallArguments (itemID delta : String) : Emitter HandlerState StreamResponse := fun s =>
  let callID := s.canonicalID (trimSpace itemID)
  if callID = "" then ([], s)
  else sendToolCallDelta responseId callID "" delta (s.addArgs callID delta)

def HandlerState.finishReason : String :=
  if s.sawToolCall ∧ s.outputText = "" then "tool_calls" else "stop"

def sendStopIfNeeded : Emitter HandlerState StreamResponse := fun s =>
  if s.sentStop then ([], s)
  else ([s.chunk responseId { finishReason := some s.finishReason }], { s with sentStop := true })

def HandlerState.withModel (model : String) : HandlerState :=
  { s with model := if model ≠ "" then model else s.model }

def handleEvent : ResponsesEvent → Emitter HandlerState StreamResponse
  | .created model => fun s => ([], s.withModel model)
  | .reasoningSummaryTextDelta delta => sendReasoningSummaryDelta responseId delta
  | .reasoningSummaryTextDone => fun s =>
    ([], { s with needsReasoningSummarySeparator :=
      s.hasSentReasoningSummary || s.needsReasoningSummarySeparator })
  | .outputTextDelta delta => sendOutputText responseId delta
  | .outputItem none => skip
  | .outputItem (some item) =>
    if item.type = .functionCall then functionCallItem responseId item else skip
  | .functionCallArgumentsDelta itemID delta => functionCallArguments responseId itemID delta
  | .completed model => fun s =>
    ((sendStartIfNeeded responseId).andThen (sendStopIfNeeded responseId)) (s.withModel model)
  | .failed => fun s => ([], { s with streamErr := true })
  | .other => skip

def onEvent (event : ResponsesEvent) : Emitter HandlerState StreamResponse := fun s =>
  if s.streamErr then ([], s) else handleEvent responseId event s

/-- The code after the event loop.  After an error there is no last chunk. -/
def finishStream : Emitter HandlerState StreamResponse := fun s =>
  if s.streamErr then ([], s)
  else ((sendStartIfNeeded responseId).andThen (sendStopIfNeeded responseId)) s

def oaiResponsesToChatStreamHandler (model : String) (events : List ResponsesEvent) :
    List StreamResponse :=
  ((forEach (onEvent responseId) events).andThen (finishStream responseId) { model := model }).1

end

/-! ## An answer and its event stream -/

/-- A content part with the pieces in which its text comes.  Other parts, such
as refusals, have events of their own that the handler does not know. -/
inductive Part where
  | outputText (pieces : List String)
  | other (text : String)

def Part.content : Part → ResponsesOutputContent
  | .outputText pieces => ⟨.outputText, String.join pieces⟩
  | .other text => ⟨.other, text⟩

def Part.text : Part → String
  | .outputText pieces => String.join pieces
  | .other _ => ""

def Part.events : Part → List ResponsesEvent
  | .outputText pieces => pieces.map .outputTextDelta ++ [.other]
  | .other _ => [.other]

inductive Item where
  | reasoning (id : String) (content : List String) (summary : List (List String))
  | message (id role : String) (parts : List Part)
  | functionCall (id callId name : String) (pieces : List String)

open Item

namespace Item

def whole : Item → ResponsesOutput
  | .reasoning id content _ =>
    { type := .reasoning, id := id, content := content.map fun text => ⟨.other, text⟩ }
  | .message id role parts =>
    { type := .message, id := id, role := role, content := parts.map Part.content }
  | .functionCall id callId name pieces =>
    { type := .functionCall, id := id, callId := callId, name := name
      arguments := String.join pieces }

def added (item : Item) : ResponsesOutput := { item.whole with content := [], arguments := "" }

def pieceEvents : Item → List ResponsesEvent
  | .reasoning _ _ summary => summary.flatMap fun pieces =>
    pieces.map .reasoningSummaryTextDelta ++ [.reasoningSummaryTextDone]
  | .message _ _ parts => parts.flatMap Part.events
  | .functionCall id _ _ pieces => pieces.map (.functionCallArgumentsDelta id) ++ [.other]

def events (item : Item) : List ResponsesEvent :=
  .outputItem (some item.added) :: item.pieceEvents ++ [.outputItem (some item.whole)]

def text (item : Item) : String := String.join item.whole.assistantTexts

def calls (item : Item) : List ToolCall := item.whole.toolCall

def Proper : Item → Prop
  | .reasoning .. => True
  | .message _ role _ => role = "" ∨ role = "assistant"
  | .functionCall id callId name _ =>
    (trimSpace callId ≠ "" ∨ trimSpace id ≠ "") ∧ trimSpace name ≠ ""

instance (item : Item) : Decidable item.Proper :=
  match item with
  | .reasoning .. => inferInstanceAs (Decidable True)
  | .message _ role _ => inferInstanceAs (Decidable (role = "" ∨ role = "assistant"))
  | .functionCall id callId name _ =>
    inferInstanceAs (Decidable ((trimSpace callId ≠ "" ∨ trimSpace id ≠ "") ∧ trimSpace name ≠ ""))

end Item

structure WellFormed (items : List Item) : Prop where
  proper : ∀ item ∈ items, item.Proper
  distinct : ((items.flatMap calls).map ToolCall.id).Nodup

def responseOf (model : String) (items : List Item) : ResponsesResponse :=
  { model := model, output := items.map whole }

def eventStream (model : String) (items : List Item) : List ResponsesEvent :=
  .created model :: items.flatMap events ++ [.completed model]

structure Agree (response : ChatResponse) (chunks : List StreamResponse) : Prop where
  content : response.content = contentAt 0 chunks
  toolCalls : response.toolCalls = callsAt 0 chunks
  finishReason : some response.finishReason = finishReasonAt 0 chunks

/-! ## What the client has heard -/

def record {ε : Type} (r : List ε) (e : ε) : List ε := r ++ [e]

theorem foldl_record {ε : Type} (r events : List ε) : events.foldl record r = r ++ events := by
  induction events generalizing r with
  | nil => simp
  | cons e events ih => simp [ih, record]

structure Heard (text : String) (entries : List (Nat × ToolCall)) (r : List StreamResponse) :
    Prop where
  content : contentAt 0 r = text
  calls : gather ToolCall.extend (fragmentsAt 0 r) = entries
  finish : finishReasonAt 0 r = none

theorem Heard.chunk {text : String} {entries : List (Nat × ToolCall)} {r : List StreamResponse}
    (h : Heard text entries r) (responseId : String) (s : HandlerState) (delta : StreamDelta) :
    Heard (text ++ delta.content.getD "")
      (delta.toolCalls.foldl (addFragment ToolCall.extend) entries)
      (r ++ [s.chunk responseId { delta := delta }]) := by
  have hchoices : choicesAt 0 [s.chunk responseId { delta := delta }] = [{ delta := delta }] := by
    simp [choicesAt, HandlerState.chunk]
  refine ⟨?_, ?_, ?_⟩
  · rw [contentAt_append, h.content]
    simp [contentAt, hchoices]
  · rw [fragmentsAt_append, gather, foldl_append]
    have hcalls := h.calls
    unfold gather at hcalls
    rw [hcalls]
    simp [fragmentsAt, hchoices]
  · have hfinish := h.finish
    unfold finishReasonAt at hfinish ⊢
    rw [choicesAt_append, hchoices, filterMap_append]
    simpa using hfinish

def callEntries (calls : List ToolCall) : List (Nat × ToolCall) := calls.zipIdx.map Prod.swap

section

variable (calls : List ToolCall)

theorem callEntries_eq : callEntries calls = numbered 0 calls := rfl

theorem callEntries_concat (call : ToolCall) :
    callEntries (calls ++ [call]) = callEntries calls ++ [(calls.length, call)] := by
  rw [callEntries_eq, numbered_append, Nat.zero_add, numbered_cons, numbered_nil, callEntries_eq]

theorem length_not_mem_keys : calls.length ∉ keys (callEntries calls) := by
  rw [callEntries_eq]
  intro h
  have hlt := (le_of_mem_keys_numbered h).2
  omega

private theorem addFragment_open (call : ToolCall) :
    addFragment ToolCall.extend (callEntries calls) (calls.length, call) =
      callEntries (calls ++ [call]) := by
  rw [addFragment_of_not_mem (length_not_mem_keys calls), callEntries_concat]

private theorem addFragment_continue (call more : ToolCall) :
    addFragment ToolCall.extend (callEntries (calls ++ [call])) (calls.length, more) =
      callEntries (calls ++ [call.extend more]) := by
  rw [callEntries_concat, addFragment_append_left (length_not_mem_keys calls), callEntries_concat]
  simp [addFragment]

end

/-! ## The handler between two items -/

/-- The client has heard the text and the calls, and the handler knows nothing
about a call that is not among those seen. -/
structure Serving (seen : List String) (text : String) (calls : List ToolCall)
    (r : List StreamResponse) (s : HandlerState) : Prop where
  heard : Heard text (callEntries calls) r
  outputText : s.outputText = text
  ids : s.toolCallIndexByID = calls.map ToolCall.id
  saw : s.sawToolCall = true ↔ calls ≠ []
  running : s.sentStop = false
  noErr : s.streamErr = false
  blank : s.toolCallCanonicalIDByItemID "" = ""
  unseen : ∀ k, k ∉ seen → s.toolCallArgsByID k = "" ∧ s.toolCallNameSent k = false ∧
    k ∉ s.toolCallIndexByID

section

variable (responseId : String) {seen : List String} {text : String} {calls : List ToolCall}
  {r : List StreamResponse} {s : HandlerState}

theorem sendStart_state (s : HandlerState) :
    (sendStartIfNeeded responseId s).2 = { s with sentStart := true } := by
  unfold sendStartIfNeeded
  by_cases h : s.sentStart = true
  · rw [if_pos h, ← h]
  · rw [if_neg h]

theorem sendStarted_state (delta : StreamDelta) (s : HandlerState) :
    (sendStarted responseId delta s).2 = { s with sentStart := true } :=
  sendStart_state responseId s

theorem Heard.start {entries : List (Nat × ToolCall)} (h : Heard text entries r)
    (s : HandlerState) : Heard text entries (r ++ (sendStartIfNeeded responseId s).1) := by
  unfold sendStartIfNeeded
  split
  · simpa using h
  · simpa using h.chunk responseId s { content := some "" }

theorem Heard.started {entries : List (Nat × ToolCall)} (h : Heard text entries r)
    (delta : StreamDelta) (s : HandlerState) :
    Heard (text ++ delta.content.getD "")
      (delta.toolCalls.foldl (addFragment ToolCall.extend) entries)
      (r ++ (sendStarted responseId delta s).1) := by
  have hdelta := (h.start responseId s).chunk responseId (sendStartIfNeeded responseId s).2 delta
  rw [append_assoc] at hdelta
  exact hdelta

theorem triple_record {P Q : List StreamResponse → HandlerState → Prop}
    {f : Emitter HandlerState StreamResponse}
    (h : ∀ r s, P r s → Q (r ++ (f s).1) (f s).2) : Triple record P f Q := by
  intro r s hP
  rw [foldl_record]
  exact h r s hP

theorem Serving.onEvent_eq (h : Serving seen text calls r s) (event : ResponsesEvent) :
    onEvent responseId event s = handleEvent responseId event s := by
  simp [onEvent, h.noErr]

/-! ### Events that bring neither text nor calls -/

def Quiet (event : ResponsesEvent) : Prop :=
  ∀ seen text calls, Triple record (Serving seen text calls) (onEvent responseId event)
    (Serving seen text calls)

private theorem quiet_reasoningDelta (delta : String) :
    Quiet responseId (.reasoningSummaryTextDelta delta) := by
  refine fun seen text calls => triple_record fun r s h => ?_
  rw [h.onEvent_eq, handleEvent]
  unfold sendReasoningSummaryDelta
  split
  · simpa using h
  refine ⟨?_, ?_, ?_, ?_, ?_, ?_, ?_, ?_⟩
  · simpa using h.heard.started responseId { reasoningContent := some (separated s delta) } _
  all_goals rw [sendStarted_state]
  exacts [h.outputText, h.ids, h.saw, h.running, h.noErr, h.blank, h.unseen]

private theorem quiet_reasoningDone : Quiet responseId .reasoningSummaryTextDone := by
  refine fun seen text calls => triple_record fun r s h => ?_
  rw [h.onEvent_eq, handleEvent, append_nil]
  exact { h with }

private theorem quiet_created (model : String) : Quiet responseId (.created model) := by
  refine fun seen text calls => triple_record fun r s h => ?_
  rw [h.onEvent_eq, handleEvent, append_nil]
  exact { h with }

private theorem quiet_other : Quiet responseId .other := by
  refine fun seen text calls => triple_record fun r s h => ?_
  rw [h.onEvent_eq, handleEvent, skip, append_nil]
  exact h

theorem quiet_item {item : ResponsesOutput} (hitem : item.type ≠ .functionCall) :
    Quiet responseId (.outputItem (some item)) := by
  refine fun seen text calls => triple_record fun r s h => ?_
  rw [h.onEvent_eq, handleEvent, if_neg hitem, skip, append_nil]
  exact h

theorem serving_quiet {events : List ResponsesEvent} (hquiet : ∀ e ∈ events, Quiet responseId e) :
    Triple record (Serving seen text calls) (forEach (onEvent responseId) events)
      (Serving seen text calls) := by
  induction events with
  | nil => exact Triple.skip fun _ _ h => h
  | cons e events ih =>
    have hhead := hquiet e mem_cons_self seen text calls
    exact hhead.cons (ih fun e' he' => hquiet e' (mem_cons_of_mem e he'))

/-! ### Texts -/

private theorem serving_outputText (delta : String) :
    Triple record (Serving seen text calls) (onEvent responseId (.outputTextDelta delta))
      (Serving seen (text ++ delta) calls) := by
  refine triple_record fun r s h => ?_
  rw [h.onEvent_eq, handleEvent]
  have hstart := h.heard.start responseId s
  unfold sendOutputText andThen
  rw [sendStart_state]
  dsimp only
  by_cases hdelta : delta = ""
  · rw [if_pos hdelta, hdelta, String.append_empty, append_nil]
    exact { h with heard := hstart }
  rw [if_neg hdelta]
  refine { h with heard := ?_, outputText := ?_ }
  · have hchunk := hstart.chunk responseId
      { s with sentStart := true, outputText := s.outputText ++ delta } { content := some delta }
    rw [append_assoc] at hchunk
    exact hchunk
  · exact congrArg (· ++ delta) h.outputText

private theorem serving_outputTexts (pieces : List String) (text : String) :
    Triple record (Serving seen text calls)
      (forEach (onEvent responseId) (pieces.map .outputTextDelta))
      (Serving seen (text ++ String.join pieces) calls) := by
  induction pieces generalizing text with
  | nil => exact Triple.skip fun _ _ h => by simpa using h
  | cons piece pieces ih =>
    have htail := ih (text ++ piece)
    rw [String.append_assoc, ← String.join_cons] at htail
    exact (serving_outputText responseId piece).cons htail

/-! ### Calls -/

theorem Serving.dropped (h : Serving seen text calls r s) (htext : text ≠ "")
    (callID name delta : String) : sendToolCallDelta responseId callID name delta s = ([], s) := by
  have hout : s.outputText ≠ "" := h.outputText ▸ htext
  simp [sendToolCallDelta, hout]

def HandlerState.sent (s : HandlerState) (callID : String) (nameByID : String → String)
    (nameSent : String → Bool) : HandlerState :=
  { s with
    sentStart := true
    toolCallIndexByID := s.indexed callID
    toolCallNameByID := nameByID
    toolCallNameSent := nameSent
    sawToolCall := true }

theorem Serving.sent (h : Serving seen "" calls r s) {callID : String} (hmem : callID ∈ seen)
    {calls' : List ToolCall} (hids : s.indexed callID = calls'.map ToolCall.id)
    (hcalls : calls' ≠ []) {nameByID : String → String} {nameSent : String → Bool}
    (hsame : ∀ k, k ≠ callID → nameSent k = s.toolCallNameSent k) {r' : List StreamResponse}
    (hheard : Heard "" (callEntries calls') r') :
    Serving seen "" calls' r' (s.sent callID nameByID nameSent) := by
  refine { h with heard := hheard, ids := hids, saw := ?_, unseen := fun k hk => ?_ }
  · simpa [HandlerState.sent] using hcalls
  · have hne : k ≠ callID := fun heq => hk (heq ▸ hmem)
    obtain ⟨hargs, hname, hindex⟩ := h.unseen k hk
    refine ⟨hargs, (hsame k hne).trans hname, ?_⟩
    simp only [HandlerState.sent, HandlerState.indexed]
    split
    · exact hindex
    · simp [hindex, hne]

theorem sendToolCallDelta_eq {callID : String} (hid : callID ≠ "") (htext : s.outputText = "")
    (name delta : String) :
    ∃ nameByID, (name ≠ "" → nameByID callID = name) ∧
      let newName := if s.toolCallNameSent callID then ""
        else if nameByID callID ≠ "" then nameByID callID else name
      let nameSent := if newName ≠ "" then update s.toolCallNameSent callID true
        else s.toolCallNameSent
      sendToolCallDelta responseId callID name delta s =
        ((sendStarted responseId
            { toolCalls := [((s.indexed callID).idxOf callID, ⟨callID, newName, delta⟩)] }
            { s.sent callID nameByID nameSent with sentStart := s.sentStart }).1,
          s.sent callID nameByID nameSent) := by
  refine ⟨if name ≠ "" then update s.toolCallNameByID callID name
    else s.toolCallNameByID, fun hname => ?_, ?_⟩
  · rw [if_pos hname, update_self]
  · unfold sendToolCallDelta
    rw [if_neg hid, if_neg (not_not.mpr htext)]
    exact Prod.ext rfl (sendStarted_state ..)

theorem Serving.opened (h : Serving seen "" calls r s) {callID name : String} (hid : callID ≠ "")
    (hmem : callID ∈ seen) (hfresh : callID ∉ calls.map ToolCall.id) (hname : name ≠ "")
    (hsent : s.toolCallNameSent callID = false) (delta : String) :
    ∃ r' s', sendToolCallDelta responseId callID name delta s = (r', s') ∧
      Serving seen "" (calls ++ [⟨callID, name, delta⟩]) (r ++ r') s' ∧
      s'.toolCallNameSent callID = true ∧ s'.toolCallArgsByID = s.toolCallArgsByID ∧
      s'.toolCallCanonicalIDByItemID = s.toolCallCanonicalIDByItemID := by
  obtain ⟨nameByID, hby, heq⟩ := sendToolCallDelta_eq responseId hid h.outputText name delta
  have hnew : (if nameByID callID ≠ "" then nameByID callID else name) = name := by
    rw [hby hname, if_pos hname]
  have hindexed : s.indexed callID = calls.map ToolCall.id ++ [callID] := by
    unfold indexed
    rw [h.ids, if_neg hfresh]
  have hidx : (s.indexed callID).idxOf callID = calls.length := by
    rw [hindexed, idxOf_append_of_notMem hfresh]
    simp
  simp only [hsent, Bool.false_eq_true, if_false, hnew, hidx, if_pos hname] at heq
  refine ⟨_, _, heq, h.sent hmem ?_ (by simp) (fun k hk => update_of_ne hk ..) ?_, ?_, rfl, rfl⟩
  · rw [hindexed, map_append]
    rfl
  · have hheard := h.heard.started responseId
      { toolCalls := [(calls.length, ⟨callID, name, delta⟩)] } { s.sent callID nameByID
          (update s.toolCallNameSent callID true) with sentStart := s.sentStart }
    simpa [addFragment_open] using hheard
  · exact update_self ..

theorem Serving.continued {callID callName args : String}
    (h : Serving seen "" (calls ++ [⟨callID, callName, args⟩]) r s) (hid : callID ≠ "")
    (hmem : callID ∈ seen) (hfresh : callID ∉ calls.map ToolCall.id) (hname : callName ≠ "")
    (hsent : s.toolCallNameSent callID = true) (name delta : String) :
    ∃ r' s', sendToolCallDelta responseId callID name delta s = (r', s') ∧
      Serving seen "" (calls ++ [⟨callID, callName, args ++ delta⟩]) (r ++ r') s' ∧
      s'.toolCallNameSent callID = true ∧ s'.toolCallArgsByID = s.toolCallArgsByID ∧
      s'.toolCallCanonicalIDByItemID = s.toolCallCanonicalIDByItemID := by
  obtain ⟨nameByID, -, heq⟩ := sendToolCallDelta_eq responseId hid h.outputText name delta
  have hindexed : s.indexed callID = calls.map ToolCall.id ++ [callID] := by
    unfold indexed
    rw [h.ids, if_pos (by simp), map_append]
    rfl
  have hidx : (s.indexed callID).idxOf callID = calls.length := by
    rw [hindexed, idxOf_append_of_notMem hfresh]
    simp
  simp only [hsent, if_true, hidx, ne_eq, not_true_eq_false, if_false] at heq
  refine ⟨_, _, heq, h.sent hmem ?_ (by simp) (fun k _ => rfl) ?_, hsent, rfl, rfl⟩
  · rw [hindexed, map_append]
    rfl
  · have hheard := h.heard.started responseId
      { toolCalls := [(calls.length, ⟨callID, "", delta⟩)] }
      { s.sent callID nameByID s.toolCallNameSent with sentStart := s.sentStart }
    have hextend : (⟨callID, callName, args⟩ : ToolCall).extend ⟨callID, "", delta⟩ =
        ⟨callID, callName, args ++ delta⟩ := by
      simp [ToolCall.extend, hid, hname]
    simpa [addFragment_continue, hextend] using hheard

def addCall (text : String) (calls : List ToolCall) (call : ToolCall) : List ToolCall :=
  if text = "" then calls ++ [call] else calls

structure Calling (seen : List String) (text : String) (calls : List ToolCall)
    (out : ResponsesOutput) (args : String) (r : List StreamResponse) (s : HandlerState) :
    Prop where
  serving : Serving (seen ++ [out.callKey]) text
    (addCall text calls ⟨out.callKey, trimSpace out.name, args⟩) r s
  canonical : trimSpace out.id ≠ "" → s.toolCallCanonicalIDByItemID (trimSpace out.id) = out.callKey
  nameSent : text = "" → s.toolCallNameSent out.callKey = true
  argsKnown : s.toolCallArgsByID out.callKey = args
  fresh : out.callKey ∉ calls.map ToolCall.id

section

variable (h : Serving seen text calls r s)
include h

theorem Serving.widen (more : List String) : Serving (seen ++ more) text calls r s := by
  refine { h with unseen := fun k hk => ?_ }
  exact h.unseen k fun hmem => hk (mem_append_left more hmem)

theorem Serving.of_maps {canonicalIDs names args : String → String} (hblank : canonicalIDs "" = "")
    (hargs : ∀ k, k ∉ seen → args k = "") :
    Serving seen text calls r
      { s with
        toolCallCanonicalIDByItemID := canonicalIDs
        toolCallNameByID := names
        toolCallArgsByID := args } :=
  { h with blank := hblank, unseen := fun k hk => ⟨hargs k hk, (h.unseen k hk).2⟩ }

theorem Serving.note {out : ResponsesOutput} (hmem : out.callKey ∈ seen) :
    Serving seen text calls r (s.note out) := by
  refine h.of_maps ?_ fun k hk => ?_
  · split
    · next hid => rw [update_of_ne (Ne.symm hid.1), h.blank]
    · exact h.blank
  · have hne : k ≠ out.callKey := fun heq => hk (heq ▸ hmem)
    have hargs := (h.unseen k hk).1
    split
    · rw [update_of_ne hne, hargs]
    · exact hargs

theorem Serving.addArgs {callID : String} (hmem : callID ∈ seen) (delta : String) :
    Serving seen text calls r (s.addArgs callID delta) := by
  refine h.of_maps h.blank fun k hk => ?_
  have hne : k ≠ callID := fun heq => hk (heq ▸ hmem)
  rw [update_of_ne hne]
  exact (h.unseen k hk).1

end

theorem append_argsDelta {newArgs prevArgs : String} (h : hasPrefix newArgs prevArgs = true) :
    prevArgs ++ argsDelta newArgs prevArgs = newArgs := by
  obtain ⟨rest, hrest⟩ := isPrefixOf_iff_prefix.mp h
  unfold argsDelta
  rw [← String.toList_inj, String.toList_append]
  by_cases hnew : newArgs = ""
  · subst hnew
    simpa using (append_eq_nil_iff.mp hrest).1
  · rw [if_neg hnew, if_pos h, String.toList_ofList, ← hrest, drop_left]

variable {out : ResponsesOutput} (hkey : out.callKey ≠ "") (hname : trimSpace out.name ≠ "")

include hkey hname

private theorem calling_added (hout : out.type = .functionCall) (harguments : out.arguments = "")
    (hfresh : out.callKey ∉ seen) :
    Triple record (Serving seen text calls) (onEvent responseId (.outputItem (some out)))
      (Calling seen text calls out "") := by
  refine triple_record fun r s h => ?_
  obtain ⟨hargs, hsent, hindex⟩ := h.unseen _ hfresh
  have hnoted := (h.widen [out.callKey]).note mem_concat_self
  have hnotedArgs : (s.note out).toolCallArgsByID out.callKey = "" := by
    simpa [note, harguments] using hargs
  have hcanonical : trimSpace out.id ≠ "" →
      (s.note out).toolCallCanonicalIDByItemID (trimSpace out.id) = out.callKey := by
    intro hid
    simp [note, hid, hkey]
  rw [h.onEvent_eq, handleEvent, if_pos hout, functionCallItem, harguments, argsDelta, if_pos rfl]
  rw [h.ids] at hindex
  by_cases htext : text = ""
  · subst htext
    obtain ⟨r', s', heq, hserving, hsent', hargs', hcan'⟩ :=
      hnoted.opened responseId hkey mem_concat_self hindex hname hsent ""
    rw [heq]
    refine ⟨?_, fun hid => ?_, fun _ => hsent', ?_, hindex⟩
    · simpa [addCall] using hserving
    · rw [hcan', hcanonical hid]
    · rw [hargs', hnotedArgs]
  · rw [hnoted.dropped responseId htext, append_nil]
    refine ⟨?_, hcanonical, fun h => absurd h htext, hnotedArgs, hindex⟩
    simpa [addCall, htext] using hnoted

omit hname in
theorem Calling.canonicalID {args : String} (h : Calling seen text calls out args r s) :
    s.canonicalID (trimSpace out.id) = if trimSpace out.id = "" then "" else out.callKey := by
  unfold HandlerState.canonicalID
  by_cases hid : trimSpace out.id = ""
  · rw [hid, h.serving.blank, if_pos rfl, if_pos rfl]
  · rw [h.canonical hid, if_neg hkey, if_neg hid]

theorem Calling.send {args : String} {s' : HandlerState} (h : Calling seen text calls out args r s)
    (hserving : Serving (seen ++ [out.callKey]) text
      (addCall text calls ⟨out.callKey, trimSpace out.name, args⟩) r s')
    (hcanonical : s'.toolCallCanonicalIDByItemID = s.toolCallCanonicalIDByItemID)
    (hsent : s'.toolCallNameSent = s.toolCallNameSent) {delta : String}
    (hargs : s'.toolCallArgsByID out.callKey = args ++ delta) (name : String) :
    Calling seen text calls out (args ++ delta)
      (r ++ (sendToolCallDelta responseId out.callKey name delta s').1)
      (sendToolCallDelta responseId out.callKey name delta s').2 := by
  by_cases htext : text = ""
  · subst htext
    rw [addCall, if_pos rfl] at hserving
    have hsent' : s'.toolCallNameSent out.callKey = true := by rw [hsent, h.nameSent rfl]
    obtain ⟨r', s'', heq, hserving', hsent'', hargs', hcan'⟩ :=
      hserving.continued responseId hkey mem_concat_self h.fresh hname hsent' name delta
    rw [heq]
    refine ⟨?_, fun hid => ?_, fun _ => hsent'', ?_, h.fresh⟩
    · simpa [addCall] using hserving'
    · rw [hcan', hcanonical, h.canonical hid]
    · rw [hargs', hargs]
  · rw [hserving.dropped responseId htext, append_nil]
    refine ⟨?_, fun hid => ?_, fun hnone => absurd hnone htext, hargs, h.fresh⟩
    · rw [addCall, if_neg htext] at hserving ⊢
      exact hserving
    · rw [hcanonical, h.canonical hid]

private theorem calling_delta (args delta : String) :
    Triple record (Calling seen text calls out args)
      (onEvent responseId (.functionCallArgumentsDelta out.id delta))
      (Calling seen text calls out (if trimSpace out.id = "" then args else args ++ delta)) := by
  refine triple_record fun r s h => ?_
  rw [h.serving.onEvent_eq, handleEvent, functionCallArguments, h.canonicalID hkey]
  by_cases hid : trimSpace out.id = ""
  · simpa only [hid, if_true, append_nil] using h
  have hargs : (s.addArgs out.callKey delta).toolCallArgsByID out.callKey = args ++ delta := by
    simp [addArgs, h.argsKnown]
  rw [if_neg hid, if_neg hid, if_neg hkey]
  exact h.send responseId hkey hname (h.serving.addArgs mem_concat_self delta)
    (by simp [addArgs]) (by simp [addArgs]) hargs ""

private theorem calling_deltas (pieces : List String) (args : String) :
    Triple record (Calling seen text calls out args)
      (forEach (onEvent responseId) (pieces.map (.functionCallArgumentsDelta out.id)))
      (Calling seen text calls out
        (if trimSpace out.id = "" then args else args ++ String.join pieces)) := by
  induction pieces generalizing args with
  | nil => exact Triple.skip fun _ _ h => by simpa using h
  | cons piece pieces ih =>
    have htail := ih (if trimSpace out.id = "" then args else args ++ piece)
    refine ((calling_delta responseId hkey hname args piece).cons htail).weaken
      fun r s h => ?_
    by_cases hid : trimSpace out.id = ""
    · simpa [hid] using h
    · simpa [hid, String.join_cons, String.append_assoc] using h

private theorem calling_done (hout : out.type = .functionCall) {args : String}
    (hargs : hasPrefix out.arguments args = true) :
    Triple record (Calling seen text calls out args) (onEvent responseId (.outputItem (some out)))
      (Serving (seen ++ [out.callKey]) text
        (addCall text calls ⟨out.callKey, trimSpace out.name, out.arguments⟩)) := by
  refine triple_record fun r s h => ?_
  have hjoin := append_argsDelta hargs
  have hcanonical : (s.note out).toolCallCanonicalIDByItemID = s.toolCallCanonicalIDByItemID := by
    simp only [note]
    split
    · next hid => rw [← h.canonical hid.1, update_eq_self]
    · rfl
  have hnoted : (s.note out).toolCallArgsByID out.callKey =
      args ++ argsDelta out.arguments args := by
    rw [hjoin]
    simp only [note]
    split
    · exact update_self ..
    next hnone =>
    have hempty : out.arguments = "" := not_not.mp hnone
    rw [h.argsKnown, hempty]
    rw [hempty] at hjoin
    exact (String.append_eq_empty_iff.mp hjoin).1
  have hsent := h.send responseId hkey hname (h.serving.note mem_concat_self) hcanonical
    (by simp [note]) hnoted (trimSpace out.name)
  rw [hjoin] at hsent
  rw [h.serving.onEvent_eq, handleEvent, if_pos hout, functionCallItem, h.argsKnown]
  exact hsent.serving

omit hkey hname in
theorem Calling.congr {out' : ResponsesOutput} {args : String} (hid : out'.id = out.id)
    (hcall : out'.callId = out.callId) (hname : out'.name = out.name)
    (h : Calling seen text calls out args r s) : Calling seen text calls out' args r s := by
  have hkey : out'.callKey = out.callKey := by rw [ResponsesOutput.callKey, hid, hcall]; rfl
  refine ⟨?_, ?_, ?_, ?_, ?_⟩
  · rw [hkey, hname]
    exact h.serving
  · rw [hkey, hid]
    exact h.canonical
  · rw [hkey]
    exact h.nameSent
  · rw [hkey]
    exact h.argsKnown
  · rw [hkey]
    exact h.fresh

private theorem serving_functionCall (added : ResponsesOutput) (hid : added.id = out.id)
    (hcall : added.callId = out.callId) (hsame : added.name = out.name)
    (haddedType : added.type = .functionCall) (hempty : added.arguments = "")
    (hout : out.type = .functionCall) (hfresh : out.callKey ∉ seen) {pieces : List String}
    (hargs : out.arguments = String.join pieces) :
    Triple record (Serving seen text calls)
      (forEach (onEvent responseId)
        (.outputItem (some added) ::
            (pieces.map (.functionCallArgumentsDelta out.id) ++ [.other]) ++
          [.outputItem (some out)]))
      (Serving (seen ++ [out.callKey]) text
        (addCall text calls ⟨out.callKey, trimSpace out.name, out.arguments⟩)) := by
  have hkey' : added.callKey = out.callKey := by
    rw [ResponsesOutput.callKey, hid, hcall]
    rfl
  have hopen : Triple record (Serving seen text calls)
      (onEvent responseId (.outputItem (some added))) (Calling seen text calls added "") := by
    refine calling_added responseId ?_ ?_ haddedType hempty ?_
    · rw [hkey']
      exact hkey
    · rw [hsame]
      exact hname
    · rw [hkey']
      exact hfresh
  have hadded : Triple record (Serving seen text calls)
      (onEvent responseId (.outputItem (some added))) (Calling seen text calls out "") :=
    hopen.weaken fun _ _ h => h.congr hid.symm hcall.symm hsame.symm
  have hother : ∀ args, Triple record (Calling seen text calls out args)
      (onEvent responseId .other) (Calling seen text calls out args) := by
    refine fun args => triple_record fun r s h => ?_
    rw [h.serving.onEvent_eq, handleEvent, skip, append_nil]
    exact h
  -- without an item id the pieces are not assigned, and the last event brings all arguments
  have hpart : hasPrefix out.arguments
      (if trimSpace out.id = "" then "" else "" ++ String.join pieces) = true := by
    rw [hargs]
    split <;> simp [hasPrefix]
  exact hadded.cons (((calling_deltas responseId hkey hname pieces "").append
    (hother _).singleton).append (calling_done responseId hkey hname hout hpart).singleton)

end

/-! ## An item -/

section

variable (responseId : String) {seen : List String} {text : String} {calls : List ToolCall}

def heardCalls (text : String) (calls : List ToolCall) (item : Item) : List ToolCall :=
  if text = "" then calls ++ item.calls else calls

private theorem serving_parts (parts : List Part) (text : String) :
    Triple record (Serving seen text calls)
      (forEach (onEvent responseId) (parts.flatMap Part.events))
      (Serving seen (text ++ String.join (parts.map Part.text)) calls) := by
  induction parts generalizing text with
  | nil => exact Triple.skip fun _ _ h => by simpa using h
  | cons part parts ih =>
    have htail := ih (text ++ part.text)
    rw [String.append_assoc, ← String.join_cons] at htail
    refine Triple.append ?_ htail
    have hother : ∀ text : String, Triple record (Serving seen text calls)
        (forEach (onEvent responseId) [.other]) (Serving seen text calls) :=
      fun text => (quiet_other responseId seen text calls).singleton
    cases part with
    | outputText pieces => exact (serving_outputTexts responseId pieces text).append (hother _)
    | other => simpa [Part.events, Part.text] using hother text

private theorem message_text {role : String} (hrole : role = "" ∨ role = "assistant") (id : String)
    (parts : List Part) :
    (message id role parts).text = String.join (parts.map Part.text) := by
  have hproper : ¬ (role ≠ "" ∧ role ≠ "assistant") := by
    rintro ⟨hnone, hother⟩
    exact hrole.elim hnone hother
  simp only [text, whole, ResponsesOutput.assistantTexts, ne_eq, not_true_eq_false,
    if_false, hproper]
  induction parts with
  | nil => rfl
  | cons part parts ih =>
    cases part with
    | outputText | other => simpa [Part.content, Part.text, String.join_cons] using ih

private theorem serving_call {item : Item} {id callId name : String} {pieces : List String}
    (hitem : item = .functionCall id callId name pieces) (hproper : item.Proper)
    (hfresh : ∀ k ∈ item.calls.map ToolCall.id, k ∉ seen) :
    Triple record (Serving seen text calls) (forEach (onEvent responseId) item.events)
      (Serving (seen ++ item.calls.map ToolCall.id) (text ++ item.text)
        (heardCalls text calls item)) := by
  obtain ⟨hids, hname⟩ := hitem ▸ hproper
  have hkey : item.whole.callKey ≠ "" := by
    by_cases hblank : trimSpace callId = ""
    · simpa [hitem, whole, ResponsesOutput.callKey, hblank] using hids
    · simp [hitem, whole, ResponsesOutput.callKey, hblank]
  have hcalls : item.calls = [⟨item.whole.callKey, trimSpace name, String.join pieces⟩] := by
    simp [hitem, Item.calls, Item.whole, ResponsesOutput.toolCall, hname]
  have htext : item.text = "" := by
    simp [hitem, Item.text, Item.whole, ResponsesOutput.assistantTexts]
  have hseen : item.calls.map ToolCall.id = [item.whole.callKey] := by
    simp [hcalls, map_cons, map_nil]
  simp only [hseen, mem_singleton, forall_eq] at hfresh
  rw [htext, String.append_empty, hseen, heardCalls, hcalls]
  subst hitem
  exact serving_functionCall responseId hkey hname (functionCall id callId name pieces).added
    rfl rfl rfl rfl rfl rfl hfresh rfl

private theorem serving_item {item : Item} (hproper : item.Proper)
    (hfresh : ∀ k ∈ item.calls.map ToolCall.id, k ∉ seen) :
    Triple record (Serving seen text calls) (forEach (onEvent responseId) item.events)
      (Serving (seen ++ item.calls.map ToolCall.id) (text ++ item.text)
        (heardCalls text calls item)) := by
  cases item with
  | reasoning id content summary =>
    have hquiet : ∀ e ∈ (reasoning id content summary).events, Quiet responseId e := by
      intro e he
      simp only [events, pieceEvents, mem_cons, mem_append,
        mem_flatMap, mem_map, not_mem_nil, or_false, cons_append] at he
      rcases he with rfl | ⟨pieces, -, ⟨piece, -, rfl⟩ | rfl⟩ | rfl
      · exact quiet_item responseId (by simp [added, whole])
      · exact quiet_reasoningDelta responseId piece
      · exact quiet_reasoningDone responseId
      · exact quiet_item responseId (by simp [Item.whole])
    refine (serving_quiet responseId hquiet).weaken fun r s h => ?_
    simpa [Item.calls, Item.text, heardCalls, Item.whole, ResponsesOutput.toolCall,
      ResponsesOutput.assistantTexts] using h
  | message id role parts =>
    have hadded : Quiet responseId (.outputItem (some (message id role parts).added)) :=
      quiet_item responseId (by simp [added, whole])
    have hdone : Quiet responseId (.outputItem (some (message id role parts).whole)) :=
      quiet_item responseId (by simp [whole])
    refine (((hadded seen text calls).cons (serving_parts responseId parts text)).append
      (hdone _ _ _).singleton).weaken fun r s h => ?_
    rw [message_text hproper]
    simpa [Item.calls, heardCalls, Item.whole, ResponsesOutput.toolCall] using h
  | functionCall => exact serving_call responseId rfl hproper hfresh

/-! ## A whole answer -/

def callsHeard : String → List ToolCall → List Item → List ToolCall
  | _, calls, [] => calls
  | text, calls, item :: items =>
    callsHeard (text ++ item.text) (heardCalls text calls item) items

private theorem callsHeard_after_text {text : String} (htext : text ≠ "") (calls : List ToolCall)
    (items : List Item) : callsHeard text calls items = calls := by
  induction items generalizing text with
  | nil => rfl
  | cons item items ih =>
    have hlonger : text ++ item.text ≠ "" := fun h =>
      htext (String.append_eq_empty_iff.mp h).1
    rw [callsHeard, heardCalls, if_neg htext, ih hlonger]

theorem Item.calls_of_text {item : Item} (htext : item.text ≠ "") : item.calls = [] := by
  cases item with
  | reasoning | message => rfl
  | functionCall =>
    exact absurd (by simp [text, whole, ResponsesOutput.assistantTexts]) htext

def earlyCalls (items : List Item) : List ToolCall :=
  (items.takeWhile fun item => item.text = "").flatMap Item.calls

private theorem callsHeard_eq (calls : List ToolCall) (items : List Item) :
    callsHeard "" calls items = calls ++ earlyCalls items := by
  induction items generalizing calls with
  | nil => simp [callsHeard, earlyCalls]
  | cons item items ih =>
    rw [callsHeard, heardCalls, if_pos rfl, String.empty_append]
    by_cases htext : item.text = ""
    · rw [htext, ih]
      simp [earlyCalls, htext]
    · rw [callsHeard_after_text htext, Item.calls_of_text htext]
      simp [earlyCalls, htext]

private theorem serving_items {items : List Item} (hproper : ∀ item ∈ items, item.Proper)
    (hdistinct : (seen ++ (items.flatMap Item.calls).map ToolCall.id).Nodup) :
    Triple record (Serving seen text calls)
      (forEach (onEvent responseId) (items.flatMap Item.events))
      (Serving (seen ++ (items.flatMap Item.calls).map ToolCall.id)
        (text ++ String.join (items.map Item.text)) (callsHeard text calls items)) := by
  induction items generalizing seen text calls with
  | nil => exact Triple.skip fun _ _ h => by simpa [callsHeard] using h
  | cons item items ih =>
    rw [flatMap_cons, map_append] at hdistinct
    have hfresh : ∀ k ∈ item.calls.map ToolCall.id, k ∉ seen := by
      intro k hk hseen
      exact (nodup_append.mp hdistinct).2.2 k hseen k (mem_append_left _ hk) rfl
    rw [← append_assoc] at hdistinct
    have hrest : ∀ i ∈ items, i.Proper := fun i hi => hproper i (mem_cons_of_mem item hi)
    rw [flatMap_cons, flatMap_cons, map_append, map_cons, String.join_cons,
      ← append_assoc, ← String.append_assoc]
    exact (serving_item responseId (hproper item mem_cons_self) hfresh).append (ih hrest hdistinct)

structure Finished (text : String) (calls : List ToolCall) (r : List StreamResponse)
    (s : HandlerState) : Prop where
  content : contentAt 0 r = text
  toolCalls : callsAt 0 r = calls
  finish : finishReasonAt 0 r = some (if calls ≠ [] ∧ text = "" then "tool_calls" else "stop")
  started : s.sentStart = true
  stopped : s.sentStop = true
  noErr : s.streamErr = false

private theorem finished_stop :
    Triple record (fun r s => Serving seen text calls r s ∧ s.sentStart = true)
      (sendStopIfNeeded responseId) (Finished text calls) := by
  refine triple_record fun r s ⟨h, hstarted⟩ => ?_
  have hreason : s.finishReason = if calls ≠ [] ∧ text = "" then "tool_calls" else "stop" := by
    simp [finishReason, h.saw, h.outputText]
  have hchoices : choicesAt 0 [s.chunk responseId { finishReason := some s.finishReason }] =
      [{ finishReason := some s.finishReason }] := by
    simp [choicesAt, chunk]
  rw [sendStopIfNeeded, if_neg (by simp [h.running])]
  refine ⟨?_, ?_, ?_, hstarted, rfl, h.noErr⟩
  · rw [contentAt_append, h.heard.content]
    simp [contentAt, hchoices]
  · have hcalls := h.heard.calls
    rw [callsAt, fragmentsAt_append]
    have hnone :
        fragmentsAt 0 [s.chunk responseId { finishReason := some s.finishReason }] = [] := by
      simp [fragmentsAt, hchoices]
    rw [hnone, append_nil, hcalls, callEntries_eq, numbered_snd]
  · rw [finishReasonAt, choicesAt_append, hchoices, ← hreason]
    simp

private theorem finished_completed (model : String) :
    Triple record (Serving seen text calls) (onEvent responseId (.completed model))
      (Finished text calls) := by
  intro r s h
  have hserving : Serving seen text calls r (s.withModel model) := { h with }
  rw [h.onEvent_eq]
  refine Triple.andThen (triple_record fun r s h => ?_)
    (@finished_stop responseId seen text calls) r _ hserving
  rw [sendStart_state]
  exact ⟨{ h with heard := h.heard.start responseId s }, rfl⟩

private theorem finished_end :
    Triple record (Finished text calls) (finishStream responseId) (Finished text calls) := by
  refine triple_record fun r s h => ?_
  have hend : finishStream responseId s = ([], s) := by
    simp [finishStream, andThen, sendStartIfNeeded, sendStopIfNeeded, h.noErr, h.started, h.stopped]
  rw [hend, append_nil]
  exact h

end

private theorem serving_init (model : String) : Serving [] "" [] [] { model := model } := by
  refine ⟨⟨rfl, rfl, rfl⟩, rfl, rfl, ?_, rfl, rfl, rfl, fun _ _ => ⟨rfl, rfl, ?_⟩⟩ <;> simp

theorem handler_finished (responseId model : String) {items : List Item} (h : WellFormed items) :
    ∃ s, Finished (String.join (items.map text)) (earlyCalls items)
      (oaiResponsesToChatStreamHandler responseId model (eventStream model items)) s := by
  have hdistinct : ([] ++ (items.flatMap Item.calls).map ToolCall.id).Nodup := h.distinct
  have hrun := (((quiet_created responseId model [] "" []).cons
    (serving_items responseId h.proper hdistinct)).append
    (finished_completed responseId model).singleton).andThen (finished_end responseId)
  have hend := hrun [] { model := model } (serving_init model)
  rw [foldl_record, nil_append, String.empty_append, callsHeard_eq, nil_append] at hend
  exact ⟨_, hend⟩

private theorem join_flatMap {β : Type} (f : β → List String) (parts : List β) :
    String.join (parts.flatMap f) = String.join (parts.map fun part => String.join (f part)) := by
  induction parts with
  | nil => rfl
  | cons part parts ih => simp [String.join_append, String.join_cons, ih]

def outputTextOf (items : List Item) : String := String.join (items.map text)

def anyTextOf (items : List Item) : String :=
  String.join (items.flatMap fun item => item.whole.texts)

private theorem extract_responseOf (model : String) (items : List Item) :
    extractOutputTextFromResponses (responseOf model items) =
      if outputTextOf items ≠ "" then outputTextOf items else anyTextOf items := by
  have htexts : String.join ((items.map whole).flatMap ResponsesOutput.assistantTexts) =
      outputTextOf items := by
    rw [flatMap_map, join_flatMap]
    rfl
  simp only [extractOutputTextFromResponses, responseOf, htexts]
  rw [flatMap_map]
  rfl

private theorem earlyCalls_eq {items : List Item} (h : outputTextOf items = "") :
    earlyCalls items = items.flatMap calls := by
  have hall : ∀ item ∈ items, item.text = "" := by
    intro item hitem
    exact join_eq_empty_iff.mp h _ (mem_map_of_mem hitem)
  rw [earlyCalls, takeWhile_eq_self_iff.mpr]
  simpa using hall

/-- The two ways agree exactly if an answer without output text has no other
text, and an answer with output text has no call before it. -/
theorem responses_answers_agree_iff (responseId model : String) {items : List Item}
    (h : WellFormed items) :
    Agree (responsesResponseToChatCompletionsResponse (responseOf model items) responseId)
        (oaiResponsesToChatStreamHandler responseId model (eventStream model items)) ↔
      (outputTextOf items = "" → anyTextOf items = "") ∧
        (outputTextOf items ≠ "" → earlyCalls items = []) := by
  obtain ⟨s, hcontent, hcalls, hfinish, -⟩ := handler_finished responseId model h
  have hoff : (responseOf model items).output.flatMap ResponsesOutput.toolCall =
      items.flatMap calls := flatMap_map ..
  have hiff : ∀ response : ChatResponse, Agree response
      (oaiResponsesToChatStreamHandler responseId model (eventStream model items)) ↔
      response.content = outputTextOf items ∧ response.toolCalls = earlyCalls items ∧
        response.finishReason =
          if earlyCalls items ≠ [] ∧ outputTextOf items = "" then "tool_calls" else "stop" := by
    intro response
    constructor
    · intro hagree
      refine ⟨hagree.content.trans hcontent, hagree.toolCalls.trans hcalls, ?_⟩
      exact Option.some.inj (hagree.finishReason.trans hfinish)
    · rintro ⟨htext, htools, hreason⟩
      refine ⟨htext.trans hcontent.symm, htools.trans hcalls.symm, ?_⟩
      rw [hreason]
      exact hfinish.symm
  rw [hiff]
  simp only [responsesResponseToChatCompletionsResponse, extract_responseOf, hoff]
  by_cases htext : outputTextOf items = ""
  · rw [earlyCalls_eq htext]
    by_cases hany : anyTextOf items = "" <;> simp [htext, hany]
  · have hnone : ([] = earlyCalls items) ↔ earlyCalls items = [] := eq_comm
    simp [htext, hnone]

/-- An answer that thinks, calls two tools and says nothing. -/
theorem two_calls_agree :
    WellFormed [.reasoning "rs_1" [] [["Let me ", "see."]],
        .functionCall "fc_1" "call_1" "weather" ["[", "]"],
        .functionCall "fc_2" "call_2" "time" []] ∧
      Agree
        (responsesResponseToChatCompletionsResponse
          (responseOf "gpt-5" [.reasoning "rs_1" [] [["Let me ", "see."]],
            .functionCall "fc_1" "call_1" "weather" ["[", "]"],
            .functionCall "fc_2" "call_2" "time" []]) "chatcmpl-1")
        (oaiResponsesToChatStreamHandler "chatcmpl-1" "gpt-5"
          (eventStream "gpt-5" [.reasoning "rs_1" [] [["Let me ", "see."]],
            .functionCall "fc_1" "call_1" "weather" ["[", "]"],
            .functionCall "fc_2" "call_2" "time" []])) := by
  have hwell : WellFormed [.reasoning "rs_1" [] [["Let me ", "see."]],
      .functionCall "fc_1" "call_1" "weather" ["[", "]"],
      .functionCall "fc_2" "call_2" "time" []] := ⟨by decide, by decide⟩
  exact ⟨hwell, (responses_answers_agree_iff "chatcmpl-1" "gpt-5" hwell).mpr
    ⟨fun _ => by decide, fun htext => absurd (by decide) htext⟩⟩

/-- A call and then a text: only the client of the stream sees the call. -/
theorem call_before_text_disagrees :
    WellFormed [.functionCall "fc_1" "call_1" "weather" ["[]"],
        .message "msg_1" "assistant" [.outputText ["I am looking it up."]]] ∧
      (responsesResponseToChatCompletionsResponse
        (responseOf "gpt-5" [.functionCall "fc_1" "call_1" "weather" ["[]"],
          .message "msg_1" "assistant" [.outputText ["I am looking it up."]]])
        "chatcmpl-1").toolCalls = [] ∧
      callsAt 0 (oaiResponsesToChatStreamHandler "chatcmpl-1" "gpt-5"
        (eventStream "gpt-5" [.functionCall "fc_1" "call_1" "weather" ["[]"],
          .message "msg_1" "assistant" [.outputText ["I am looking it up."]]])) =
        [⟨"call_1", "weather", "[]"⟩] := ⟨⟨by decide, by decide⟩, by decide, by decide⟩

end NewApi.OpenAICompat
