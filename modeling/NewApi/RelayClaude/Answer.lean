import Mathlib.Data.List.Zip
import NewApi.Dto.ChatStream
import NewApi.Foundation.InOrder

/-!
# Claude answers for chat clients

`StreamResponseClaude2OpenAI` and `ResponseClaude2OpenAI` of
`relay/channel/claude/relay-claude.go`.  An answer is a list of content blocks.
It comes as a whole, or as an event stream in which every block is cut into
pieces.
-/

namespace NewApi.RelayClaude

open Foundation List Dto

universe u

section

variable {α : Type u}

def stopReasonClaude2OpenAI (reason : String) : String :=
  match reason.toLower with
  | "stop_sequence" => "stop"
  | "end_turn" => "stop"
  | "max_tokens" => "length"
  | "tool_use" => "tool_calls"
  | "refusal" => "content_filter"
  | _ => reason

inductive ClaudeMediaMessage (α : Type u) where
  | text (text : Option String)
  | thinking (thinking : Option String)
  | toolUse (id name : String) (input : α)
  | other

namespace ClaudeMediaMessage

def getText : ClaudeMediaMessage α → String
  | .text s => s.getD ""
  | _ => ""

def getThinking : ClaudeMediaMessage α → String
  | .thinking s => s.getD ""
  | _ => ""

end ClaudeMediaMessage

structure ClaudeResponse (α : Type u) where
  id : String
  model : String
  content : List (ClaudeMediaMessage α)
  stopReason : String

structure OpenAITextResponse where
  id : String
  model : String
  content : String
  reasoningContent : Option String
  toolCalls : List ToolCall
  finishReason : String

structure Collected where
  responseText : String
  thinkingContent : String := ""
  tools : List ToolCall := []

open Collected

def Collected.visit (json : JsonCodec α) (c : Collected) : ClaudeMediaMessage α → Collected
  | .toolUse id name input => { c with tools := c.tools ++ [⟨id, name, json.marshal input⟩] }
  | .thinking (some thinking) => { c with thinkingContent := thinking }
  | .thinking none => c
  | .text text => { c with responseText := text.getD "" }
  | .other => c

def responseClaude2OpenAI (json : JsonCodec α) (response : ClaudeResponse α) : OpenAITextResponse :=
  let responseText := (response.content.head?.map ClaudeMediaMessage.getText).getD ""
  let responseThinking := (response.content.head?.map ClaudeMediaMessage.getThinking).getD ""
  let c := response.content.foldl (visit json) ⟨responseText, "", []⟩
  { id := response.id
    model := response.model
    content := c.responseText
    reasoningContent :=
      if c.thinkingContent ≠ "" then some c.thinkingContent
      else if responseThinking ≠ "" then some responseThinking
      else none
    toolCalls := c.tools
    finishReason := stopReasonClaude2OpenAI response.stopReason }

inductive ContentBlock where
  | text (text : Option String)
  | thinking
  | toolUse (id name : String)

inductive ContentDelta where
  | textDelta (text : String)
  | inputJsonDelta (partialJson : String)
  | signatureDelta (signature : String)
  | thinkingDelta (thinking : String)

inductive ClaudeEvent where
  | messageStart (message : Option (String × String))
  | contentBlockStart (index : Option Nat) (block : Option ContentBlock)
  | contentBlockDelta (index : Option Nat) (delta : Option ContentDelta)
  | contentBlockStop (index : Option Nat)
  | messageDelta (stopReason : Option String)
  | messageStop

def startDelta (fcIdx : Nat) : ContentBlock → StreamDelta
  | .text text => { content := text }
  | .thinking => {}
  | .toolUse id name => { toolCalls := [(fcIdx, { id := id, name := name })] }

def contentDelta (fcIdx : Nat) : ContentDelta → StreamDelta
  | .textDelta text => { content := some text }
  | .inputJsonDelta partialJson => { toolCalls := [(fcIdx, { arguments := partialJson })] }
  | .signatureDelta _ => { reasoningContent := some "\n" }
  | .thinkingDelta thinking => { reasoningContent := some thinking }

def streamResponseClaude2OpenAI : ClaudeEvent → Option StreamResponse
  | .messageStart message =>
    some { id := (message.map Prod.fst).getD ""
           model := (message.map Prod.snd).getD ""
           choices := [{ delta := { content := some "" } }] }
  | .contentBlockStart index block =>
    block.map fun block => chunkOf (startDelta (index.getD 0) block)
  | .contentBlockDelta index delta =>
    some (chunkOf ((delta.map fun delta => contentDelta (index.getD 0) delta).getD {}))
  | .messageDelta stopReason =>
    some { choices :=
      [{ finishReason :=
          (stopReason.map stopReasonClaude2OpenAI).filter fun reason => reason ≠ "null" }] }
  | .contentBlockStop _ => none
  | .messageStop => none

/-! ## An answer and its event stream -/

inductive ThinkingPiece where
  | thinking (thinking : String)
  | signature (signature : String)

def ThinkingPiece.text : ThinkingPiece → String
  | .thinking s => s
  | .signature _ => ""

def ThinkingPiece.delta : ThinkingPiece → ContentDelta
  | .thinking s => .thinkingDelta s
  | .signature s => .signatureDelta s

/-- A block, with the pieces in which the upstream sends it.  The pieces of a
tool input spell that input. -/
inductive Block (json : JsonCodec α) where
  | text (start : String) (pieces : List String)
  | thinking (pieces : List ThinkingPiece)
  | toolUse (id name : String) (input : α) (pieces : List String)
      (spelled : json.unmarshal (String.join pieces) = some input)

open Block

namespace Block

variable {json : JsonCodec α}

def text? : Block json → Option String
  | .text start pieces => some (start ++ String.join pieces)
  | _ => none

def thinking? : Block json → Option String
  | .thinking pieces => some (String.join (pieces.map ThinkingPiece.text))
  | _ => none

def whole : Block json → ClaudeMediaMessage α
  | .text start pieces => .text (some (start ++ String.join pieces))
  | .thinking pieces => .thinking (some (String.join (pieces.map ThinkingPiece.text)))
  | .toolUse id name input _ _ => .toolUse id name input

def start : Block json → ContentBlock
  | .text start _ => .text (some start)
  | .thinking _ => .thinking
  | .toolUse id name _ _ _ => .toolUse id name

def deltas : Block json → List ContentDelta
  | .text _ pieces => pieces.map .textDelta
  | .thinking pieces => pieces.map ThinkingPiece.delta
  | .toolUse _ _ _ pieces _ => pieces.map .inputJsonDelta

def eventsOf (index : Nat) (block : ContentBlock) (deltas : List ContentDelta) : List ClaudeEvent :=
  .contentBlockStart (some index) (some block) ::
    deltas.map (fun delta => .contentBlockDelta (some index) (some delta)) ++
    [.contentBlockStop (some index)]

def events (b : Block json) (index : Nat) : List ClaudeEvent := eventsOf index b.start b.deltas

end Block

variable {json : JsonCodec α}

structure Answer (json : JsonCodec α) where
  id : String
  model : String
  blocks : List (Block json)
  stopReason : String

namespace Answer

section

variable (a : Answer json)

def response : ClaudeResponse α :=
  { id := a.id, model := a.model, content := a.blocks.map whole, stopReason := a.stopReason }

def blockEvents : List ClaudeEvent := a.blocks.zipIdx.flatMap fun p => p.1.events p.2

def events : List ClaudeEvent :=
  .messageStart (some (a.id, a.model)) :: a.blockEvents ++
    [.messageDelta (some a.stopReason), .messageStop]

def texts : List String := a.blocks.filterMap text?

def thinkings : List String := a.blocks.filterMap thinking?

end

end Answer

def chunksOf (events : List ClaudeEvent) : List StreamResponse :=
  events.filterMap streamResponseClaude2OpenAI

def ContentDelta.isSignature : ContentDelta → Bool
  | .signatureDelta _ => true
  | _ => false

def ClaudeEvent.isSignature : ClaudeEvent → Bool
  | .contentBlockDelta _ (some delta) => delta.isSignature
  | _ => false

def readCalls (json : JsonCodec α) (calls : List ToolCall) : List (String × String × Option α) :=
  calls.map fun call => (call.id, call.name, json.unmarshal call.arguments)

structure Agree (json : JsonCodec α) (response : OpenAITextResponse)
    (events : List ClaudeEvent) : Prop where
  text : response.content = contentAt 0 (chunksOf events)
  reasoning : response.reasoningContent.getD "" =
    reasoningAt 0 (chunksOf (events.filter fun e => !e.isSignature))
  toolCalls : readCalls json response.toolCalls = readCalls json (callsAt 0 (chunksOf events))

/-! ## The answer as a whole -/

section

variable (contents : List (ClaudeMediaMessage α)) (c : Collected)

def ClaudeMediaMessage.text? : ClaudeMediaMessage α → Option String
  | .text s => some (s.getD "")
  | _ => none

def ClaudeMediaMessage.toolCalls (json : JsonCodec α) : ClaudeMediaMessage α → List ToolCall
  | .toolUse id name input => [⟨id, name, json.marshal input⟩]
  | _ => []

def ClaudeMediaMessage.thinking? : ClaudeMediaMessage α → Option String
  | .thinking s => s
  | _ => none

-- A later block of a kind replaces what an earlier one stored.
private theorem foldl_visit_responseText :
    (contents.foldl (visit json) c).responseText =
      (contents.filterMap ClaudeMediaMessage.text?).getLast?.getD c.responseText := by
  refine foldl_overwrite (fun c content => ?_) c contents
  rcases content with text | (_ | thinking) | _ | _ <;> rfl

private theorem foldl_visit_thinkingContent :
    (contents.foldl (visit json) c).thinkingContent =
      (contents.filterMap ClaudeMediaMessage.thinking?).getLast?.getD c.thinkingContent := by
  refine foldl_overwrite (fun c content => ?_) c contents
  rcases content with text | (_ | thinking) | _ | _ <;> rfl

private theorem foldl_visit_tools :
    (contents.foldl (visit json) c).tools =
      c.tools ++ contents.flatMap (ClaudeMediaMessage.toolCalls json) := by
  refine foldl_collect (fun c content => ?_) c contents
  rcases content with text | (_ | thinking) | _ | _ <;>
    simp [visit, ClaudeMediaMessage.toolCalls]

end

theorem Block.whole_text? (b : Block json) : b.whole.text? = b.text? := by cases b <;> rfl

theorem Block.whole_thinking? (b : Block json) : b.whole.thinking? = b.thinking? := by
  cases b <;> rfl

def Block.toolCalls : Block json → List ToolCall
  | .toolUse id name input _ _ => [⟨id, name, json.marshal input⟩]
  | _ => []

def Block.streamedCalls : Block json → List ToolCall
  | .toolUse id name _ pieces _ => [⟨id, name, String.join pieces⟩]
  | _ => []

namespace Answer

variable (a : Answer json)

def firstThinking : String := (a.blocks.head?.bind thinking?).getD ""

theorem response_text :
    (responseClaude2OpenAI json a.response).content = a.texts.getLast?.getD "" := by
  have htexts : a.response.content.filterMap ClaudeMediaMessage.text? = a.texts := by
    simp only [response, texts, filterMap_map]
    exact filterMap_congr fun b _ => b.whole_text?
  simp only [responseClaude2OpenAI, foldl_visit_responseText, htexts]
  cases hlast : a.texts.getLast? with
  | some => rfl
  | none =>
    -- without a text block the first block has no text either
    have hnone : a.texts = [] := getLast?_eq_none_iff.mp hlast
    cases hblocks : a.blocks with
    | nil => simp [response, hblocks]
    | cons b =>
      have hb : b.text? = none := by
        refine filterMap_eq_nil_iff.mp hnone b ?_
        rw [hblocks]
        exact mem_cons_self
      cases b with
      | text => cases hb
      | thinking | toolUse => simp [response, hblocks, whole, ClaudeMediaMessage.getText]

private theorem response_reasoning :
    (responseClaude2OpenAI json a.response).reasoningContent.getD "" =
      if a.thinkings.getLast?.getD "" ≠ "" then a.thinkings.getLast?.getD ""
      else a.firstThinking := by
  have hthinkings : a.response.content.filterMap ClaudeMediaMessage.thinking? = a.thinkings := by
    simp only [response, thinkings, filterMap_map]
    exact filterMap_congr fun b _ => b.whole_thinking?
  have hfirst : (a.response.content.head?.map ClaudeMediaMessage.getThinking).getD "" =
      a.firstThinking := by
    unfold response firstThinking
    rcases a.blocks with _ | ⟨_ | _ | _, blocks⟩ <;> rfl
  simp only [responseClaude2OpenAI, foldl_visit_thinkingContent, hthinkings, hfirst]
  by_cases hlast : a.thinkings.getLast?.getD "" = "" <;> by_cases hhead : a.firstThinking = "" <;>
    simp [hlast, hhead]

private theorem response_toolCalls :
    (responseClaude2OpenAI json a.response).toolCalls = a.blocks.flatMap toolCalls := by
  simp only [responseClaude2OpenAI, foldl_visit_tools, response, nil_append, flatMap_map]
  refine flatMap_congr fun b _ => ?_
  cases b <;> rfl

end Answer

/-! ## The stream -/

@[simp] theorem chunksOf_append (first second : List ClaudeEvent) :
    chunksOf (first ++ second) = chunksOf first ++ chunksOf second := filterMap_append

theorem chunksOf_flatMap {β : Type*} (f : β → List ClaudeEvent) (parts : List β) :
    chunksOf (parts.flatMap f) = parts.flatMap fun part => chunksOf (f part) := by
  induction parts with
  | nil => rfl
  | cons part parts ih => simp [ih]

namespace Block

variable (b : Block json) (index : Nat)

theorem chunksOf_eventsOf (block : ContentBlock) (deltas : List ContentDelta) :
    chunksOf (eventsOf index block deltas) =
      (startDelta index block :: deltas.map (contentDelta index)).map chunkOf := by
  have hdeltas : chunksOf (deltas.map fun delta => .contentBlockDelta (some index) (some delta)) =
      (deltas.map (contentDelta index)).map chunkOf := by
    induction deltas with
    | nil => rfl
    | cons delta deltas ih => exact congrArg (List.cons _) ih
  unfold eventsOf
  rw [cons_append, ← singleton_append, chunksOf_append, chunksOf_append, hdeltas]
  simp [chunksOf, streamResponseClaude2OpenAI]

private theorem filter_eventsOf (block : ContentBlock) (deltas : List ContentDelta) :
    (eventsOf index block deltas).filter (fun e => !e.isSignature) =
      eventsOf index block (deltas.filter fun delta => !delta.isSignature) := by
  simp [eventsOf, filter_map, ClaudeEvent.isSignature, Function.comp_def]

theorem contentAt_events : contentAt 0 (chunksOf (b.events index)) = b.text?.getD "" := by
  unfold events
  rw [chunksOf_eventsOf, contentAt_map_chunkOf]
  cases b with
  | text =>
    simp [start, deltas, startDelta, contentDelta, text?, String.join_cons, Function.comp_def]
  | thinking =>
    have hpieces : ∀ piece : ThinkingPiece, (contentDelta index piece.delta).content = none := by
      rintro (_ | _) <;> rfl
    refine join_eq_empty_iff.mpr ?_
    simp [start, deltas, startDelta, hpieces]
  | toolUse =>
    refine join_eq_empty_iff.mpr ?_
    simp [start, deltas, startDelta, contentDelta]

private theorem join_thinking (pieces : List ThinkingPiece) :
    String.join (((pieces.map ThinkingPiece.delta).filter fun delta => !delta.isSignature).map
      fun delta => (contentDelta index delta).reasoningContent.getD "") =
      String.join (pieces.map ThinkingPiece.text) := by
  induction pieces with
  | nil => rfl
  | cons piece pieces ih =>
    cases piece with
    | thinking => simpa [ThinkingPiece.delta, ThinkingPiece.text, ContentDelta.isSignature,
        contentDelta, String.join_cons] using ih
    | signature => simpa [ThinkingPiece.delta, ThinkingPiece.text, ContentDelta.isSignature,
        String.join_cons] using ih

theorem reasoningAt_events :
    reasoningAt 0 (chunksOf ((b.events index).filter fun e => !e.isSignature)) =
      b.thinking?.getD "" := by
  unfold events
  rw [filter_eventsOf, chunksOf_eventsOf, reasoningAt_map_chunkOf]
  cases b with
  | thinking pieces =>
    have hjoin := join_thinking index pieces
    simpa [start, deltas, startDelta, thinking?, String.join_cons, Function.comp_def]
      using hjoin
  | _ =>
    refine join_eq_empty_iff.mpr ?_
    simp [start, deltas, startDelta, contentDelta]

theorem fragmentsAt_events :
    fragmentsAt 0 (chunksOf (b.events index)) =
      match b with
      | .toolUse id name _ pieces _ =>
        (({ id := id, name := name } : ToolCall) ::
          pieces.map fun piece => { arguments := piece }).map fun call => (index, call)
      | _ => [] := by
  unfold events
  rw [chunksOf_eventsOf, fragmentsAt_map_chunkOf]
  cases b with
  | text => simp [start, deltas, startDelta, contentDelta]
  | thinking =>
    have hpieces : ∀ piece : ThinkingPiece, (contentDelta index piece.delta).toolCalls = [] := by
      rintro (_ | _) <;> rfl
    simp [start, deltas, startDelta, hpieces]
  | toolUse =>
    simp [start, deltas, startDelta, contentDelta, flatMap_map, Function.comp_def, ← map_eq_flatMap]

private theorem gather_fragmentsAt :
    (gather ToolCall.extend (fragmentsAt 0 (chunksOf (b.events index)))).map Prod.snd =
      b.streamedCalls := by
  rw [fragmentsAt_events]
  cases b with
  | text | thinking => rfl
  | toolUse =>
    dsimp only
    rw [gather_same, foldl_extend_arguments]
    simp [streamedCalls]

theorem keys_fragmentsAt {f : Nat × ToolCall}
    (h : f ∈ fragmentsAt 0 (chunksOf (b.events index))) : f.1 = index := by
  rw [fragmentsAt_events] at h
  cases b with
  | text | thinking => cases h
  | toolUse =>
    obtain ⟨call, -, rfl⟩ := mem_map.mp h
    rfl

end Block

namespace Answer

variable (a : Answer json)

theorem join_zipIdx {f : Block json → Option String} {g : Block json × Nat → String}
    (h : ∀ p, g p = (f p.1).getD "") (blocks : List (Block json)) (first : Nat) :
    String.join ((blocks.zipIdx first).map g) = String.join (blocks.filterMap f) := by
  induction blocks generalizing first with
  | nil => rfl
  | cons b blocks ih =>
    rw [zipIdx_cons, map_cons, String.join_cons, ih, h]
    cases hb : f b with
    | none => simp [filterMap_cons_none hb]
    | some => simp [filterMap_cons_some hb, String.join_cons]

theorem contentAt_events : contentAt 0 (chunksOf a.events) = String.join a.texts := by
  have hblocks : contentAt 0 (chunksOf a.blockEvents) = String.join a.texts := by
    unfold blockEvents
    rw [chunksOf_flatMap, (textsAt_flatMap _ _ _).1]
    exact join_zipIdx (fun p => p.1.contentAt_events p.2) a.blocks 0
  have hstart : contentAt 0 (chunksOf [.messageStart (some (a.id, a.model))]) = "" := rfl
  have hstop : contentAt 0 (chunksOf [.messageDelta (some a.stopReason), .messageStop]) = "" := rfl
  unfold events
  rw [cons_append, ← singleton_append, chunksOf_append, chunksOf_append,
    contentAt_append, contentAt_append, hblocks, hstart, hstop, String.empty_append,
    String.append_empty]

theorem reasoningAt_events :
    reasoningAt 0 (chunksOf (a.events.filter fun e => !e.isSignature)) =
      String.join a.thinkings := by
  have hblocks : reasoningAt 0 (chunksOf (a.blockEvents.filter fun e => !e.isSignature)) =
      String.join a.thinkings := by
    unfold blockEvents
    rw [filter_flatMap, chunksOf_flatMap, (textsAt_flatMap _ _ _).2]
    exact join_zipIdx (fun p => p.1.reasoningAt_events p.2) a.blocks 0
  have hstart : reasoningAt 0 (chunksOf ([ClaudeEvent.messageStart (some (a.id, a.model))].filter
      fun e => !e.isSignature)) = "" := rfl
  have hstop : reasoningAt 0 (chunksOf ([ClaudeEvent.messageDelta (some a.stopReason),
      .messageStop].filter fun e => !e.isSignature)) = "" := rfl
  unfold events
  rw [cons_append, ← singleton_append, filter_append, filter_append,
    chunksOf_append, chunksOf_append, reasoningAt_append, reasoningAt_append, hblocks, hstart,
    hstop, String.empty_append, String.append_empty]

theorem fragmentsAt_events : fragmentsAt 0 (chunksOf a.events) =
    a.blocks.zipIdx.flatMap fun p => fragmentsAt 0 (chunksOf (p.1.events p.2)) := by
  unfold events
  rw [cons_append, ← singleton_append, chunksOf_append, chunksOf_append,
    fragmentsAt_append, fragmentsAt_append, blockEvents, chunksOf_flatMap, fragmentsAt_flatMap]
  simp [chunksOf, streamResponseClaude2OpenAI, fragmentsAt, choicesAt]

theorem callsAt_events : callsAt 0 (chunksOf a.events) = a.blocks.flatMap streamedCalls := by
  have hapart : a.blocks.zipIdx.Pairwise fun p q => p.2 ≠ q.2 := by
    rw [← pairwise_map (R := (· ≠ ·)), zipIdx_map_snd]
    exact nodup_range'
  unfold callsAt
  rw [fragmentsAt_events, gather_flatMap, map_flatMap]
  · simp only [gather_fragmentsAt]
    conv_rhs => rw [← zipIdx_map_fst 0 a.blocks]
    rw [flatMap_map]
  · refine hapart.imp fun {p q} hne f hf hmem => hne ?_
    obtain ⟨g, hg, hkey⟩ := mem_map.mp hmem
    rw [← keys_fragmentsAt _ _ hg, hkey, keys_fragmentsAt _ _ hf]

end Answer

theorem Block.readCalls_streamedCalls (b : Block json) :
    readCalls json b.streamedCalls = readCalls json b.toolCalls := by
  cases b with
  | text | thinking => rfl
  | toolUse id name input pieces spelled =>
    simp [streamedCalls, toolCalls, readCalls, spelled, json.unmarshal_marshal]

theorem readCalls_flatMap {β : Type*} (f : β → List ToolCall) (parts : List β) :
    readCalls json (parts.flatMap f) = parts.flatMap fun part => readCalls json (f part) :=
  map_flatMap

namespace Answer

variable (a : Answer json)

private theorem toolCalls_agree :
    readCalls json (responseClaude2OpenAI json a.response).toolCalls =
      readCalls json (callsAt 0 (chunksOf a.events)) := by
  rw [response_toolCalls, callsAt_events, readCalls_flatMap, readCalls_flatMap]
  simp [readCalls_streamedCalls]

def ThinkingInOnePlace : Prop :=
  (∀ s ∈ a.thinkings.dropLast, s = "") ∨
    (∃ s, a.blocks.head?.bind thinking? = some s) ∧ ∀ s ∈ a.thinkings.tail, s = ""

theorem thinkings_of_head {s : String} (h : a.blocks.head?.bind thinking? = some s) :
    a.thinkings = s :: a.thinkings.tail := by
  unfold thinkings
  cases hblocks : a.blocks with
  | nil => simp [hblocks] at h
  | cons b =>
    have hb : b.thinking? = some s := by simpa [hblocks] using h
    rw [filterMap_cons_some hb, tail_cons]

theorem getLast_thinkings_of_tail {s : String} {rest : List String} (h : ∀ t ∈ rest, t = "") :
    (s :: rest).getLast?.getD "" = "" ∨ (s :: rest).getLast?.getD "" = s := by
  rw [getLast?_cons, Option.getD_some]
  cases hlast : rest.getLast? with
  | none => exact .inr rfl
  | some t => exact .inl (h t (mem_of_getLast? hlast))

private theorem reasoning_agree_iff :
    (responseClaude2OpenAI json a.response).reasoningContent.getD "" =
        reasoningAt 0 (chunksOf (a.events.filter fun e => !e.isSignature)) ↔
      a.ThinkingInOnePlace := by
  rw [response_reasoning, reasoningAt_events]
  unfold ThinkingInOnePlace
  rw [← join_eq_getLast_iff]
  by_cases hlast : a.thinkings.getLast?.getD "" = ""
  · rw [if_neg (not_not.mpr hlast), hlast, firstThinking]
    cases hhead : a.blocks.head?.bind thinking? with
    | none =>
      refine ⟨fun h => .inl h.symm, ?_⟩
      rintro (h | ⟨⟨s, hs⟩, -⟩)
      · exact h.symm
      · cases hs
    | some s =>
      have hsplit := a.thinkings_of_head hhead
      have hone := join_eq_head_iff s a.thinkings.tail
      rw [← hsplit] at hone
      refine ⟨fun h => .inr ⟨⟨s, rfl⟩, hone.mp h.symm⟩, ?_⟩
      rintro (h | ⟨-, h⟩)
      · have hs : s ∈ a.thinkings := by
          rw [hsplit]
          exact mem_cons_self
        rw [h, Option.getD_some, join_eq_empty_iff.mp h s hs]
      · exact (hone.mpr h).symm
  · rw [if_pos hlast]
    refine ⟨fun h => .inl h.symm, ?_⟩
    rintro (h | ⟨⟨s, hs⟩, h⟩)
    · exact h.symm
    · have hsplit := a.thinkings_of_head hs
      have hone := (join_eq_head_iff s a.thinkings.tail).mpr h
      have hends := getLast_thinkings_of_tail (s := s) h
      rw [← hsplit] at hone hends
      rw [hone]
      exact hends.resolve_left hlast

end Answer

/-- The two ways agree exactly if at most one text block has text, namely the
last one, and the thinking is in one place. -/
theorem claude_answers_agree_iff (json : JsonCodec α) (a : Answer json) :
    Agree json (responseClaude2OpenAI json a.response) a.events ↔
      (∀ s ∈ a.texts.dropLast, s = "") ∧ a.ThinkingInOnePlace := by
  rw [← a.reasoning_agree_iff, ← join_eq_getLast_iff]
  constructor
  · intro h
    refine ⟨?_, h.reasoning⟩
    rw [← a.contentAt_events, ← h.text, a.response_text]
  · rintro ⟨htext, hreasoning⟩
    refine ⟨?_, hreasoning, a.toolCalls_agree⟩
    rw [a.response_text, a.contentAt_events, htext]

def twoTexts (json : JsonCodec α) : Answer json :=
  { id := "msg_1", model := "claude", stopReason := "end_turn"
    blocks := [.text "" ["Let me check."], .text "" ["It is sunny."]] }

/-- The first of two text blocks is in the stream only. -/
theorem two_text_blocks_disagree :
    ¬ Agree rawMessage (responseClaude2OpenAI rawMessage (twoTexts rawMessage).response)
        (twoTexts rawMessage).events ∧
      (responseClaude2OpenAI rawMessage (twoTexts rawMessage).response).content = "It is sunny." ∧
      contentAt 0 (chunksOf (twoTexts rawMessage).events) = "Let me check.It is sunny." := by
  refine ⟨fun h => ?_, by decide, by decide⟩
  have htext := h.text
  revert htext
  decide

end

/-!
## Indices of streamed tool calls

`StreamResponseClaude2OpenAI` numbers a tool call by the index of its content
block.  A Claude index counts all blocks, an index of `tool_calls` is a position
among the calls: the two differ behind a block of text or thinking.
-/

variable {α : Type u} {json : JsonCodec α}

def Block.isTool : Block json → Bool
  | .toolUse .. => true
  | _ => false

def Block.fragments : Block json → List ToolCall
  | .toolUse id name _ pieces _ =>
    { id := id, name := name } :: pieces.map fun piece => { arguments := piece }
  | _ => []

/-- What a client makes of the calls that takes an index as a position. -/
def callsByPosition (index : Nat) (chunks : List StreamResponse) : List ToolCall :=
  place ToolCall.extend {} (fragmentsAt index chunks)

namespace Answer

variable (a : Answer json)

def toolBlocks : List (Block json) := a.blocks.filter Block.isTool

def numberedFragments : List (Nat × ToolCall) :=
  a.toolBlocks.zipIdx.flatMap fun p => p.1.fragments.map fun call => (p.2, call)

def ToolsFirst : Prop := FrontLoaded Block.isTool a.blocks

instance : Decidable a.ToolsFirst := by
  unfold ToolsFirst
  infer_instance

end Answer

theorem Block.fragmentsAt_eq (b : Block json) (index : Nat) :
    fragmentsAt 0 (chunksOf (b.events index)) = b.fragments.map fun call => (index, call) := by
  rw [b.fragmentsAt_events index]
  cases b <;> rfl

theorem Block.fragments_of_isTool {b : Block json} (h : b.isTool = true) :
    b.fragments ≠ [] ∧ b.streamedCalls = [b.fragments.foldl ToolCall.extend {}] := by
  cases b with
  | text | thinking => cases h
  | toolUse =>
    constructor
    · exact cons_ne_nil _ _
    · rw [fragments, foldl_cons, foldl_extend_arguments]
      simp [streamedCalls, ToolCall.extend]

theorem Block.fragments_of_not_isTool {b : Block json} (h : ¬ b.isTool = true) :
    b.fragments = [] ∧ b.streamedCalls = [] := by
  cases b with
  | text | thinking => exact ⟨rfl, rfl⟩
  | toolUse => exact absurd rfl h

namespace Answer

variable (a : Answer json)

theorem fragmentsAt_eq : fragmentsAt 0 (chunksOf a.events) =
    a.blocks.zipIdx.flatMap fun p => p.1.fragments.map fun call => (p.2, call) := by
  rw [a.fragmentsAt_events]
  simp [Block.fragmentsAt_eq]

private theorem streamedCalls_eq : a.blocks.flatMap Block.streamedCalls =
    a.toolBlocks.map fun b => b.fragments.foldl ToolCall.extend {} := by
  rw [flatMap_filter Block.isTool fun b hb => (Block.fragments_of_not_isTool hb).2, map_eq_flatMap]
  apply flatMap_congr
  intro b hb
  exact (Block.fragments_of_isTool (mem_filter.mp hb).2).2

private theorem place_numberedFragments :
    place ToolCall.extend {} a.numberedFragments = a.blocks.flatMap Block.streamedCalls := by
  have hgroups : ∀ g ∈ a.toolBlocks.map Block.fragments, g ≠ [] := by
    intro g hg
    rcases mem_map.mp hg with ⟨b, hb, rfl⟩
    exact (Block.fragments_of_isTool (mem_filter.mp hb).2).1
  have hplaced : place ToolCall.extend {} _ = _ := place_groups hgroups
  rw [zipIdx_map, flatMap_map, map_map] at hplaced
  rw [streamedCalls_eq]
  exact hplaced

theorem fragmentsAt_tools : fragmentsAt 0 (chunksOf a.events) =
    (a.blocks.zipIdx.filter fun p => p.1.isTool).flatMap fun p =>
      p.1.fragments.map fun call => (p.2, call) := by
  have hothers : ∀ p : Block json × Nat, ¬ p.1.isTool = true →
      p.1.fragments.map (fun call => (p.2, call)) = [] := by
    intro p hp
    rw [(Block.fragments_of_not_isTool hp).1]
    rfl
  rw [fragmentsAt_eq, flatMap_filter (fun p => p.1.isTool) hothers]

theorem fragmentsAt_of_toolsFirst (h : a.ToolsFirst) :
    fragmentsAt 0 (chunksOf a.events) = a.numberedFragments := by
  rw [fragmentsAt_tools, filter_zipIdx h]
  rfl

private theorem toolsFirst_of_fragmentsAt
    (h : fragmentsAt 0 (chunksOf a.events) = a.numberedFragments) : a.ToolsFirst := by
  rw [fragmentsAt_tools] at h
  refine frontLoaded_of_filter_zipIdx (eq_of_flatMap_tagged ?_ ?_ h)
  · intro p hp
    exact (Block.fragments_of_isTool (mem_filter.mp hp).2).1
  · change map Prod.fst (filter (Block.isTool ∘ Prod.fst) a.blocks.zipIdx) = _
    rw [← filter_map, zipIdx_map_fst, zipIdx_map_fst]

end Answer

/--
The calls of the stream are numbered from 0, and a client that takes the indices as positions
rebuilds exactly the calls, if and only if no block of text or thinking comes before a tool call.
-/
theorem tool_indices_positions_iff (json : JsonCodec α) (a : Answer json) :
    (fragmentsAt 0 (chunksOf a.events) = a.numberedFragments ∧
      callsByPosition 0 (chunksOf a.events) = a.blocks.flatMap Block.streamedCalls) ↔
      a.ToolsFirst := by
  refine ⟨fun h => a.toolsFirst_of_fragmentsAt h.1, fun h => ?_⟩
  constructor
  · exact a.fragmentsAt_of_toolsFirst h
  · rw [callsByPosition, a.fragmentsAt_of_toolsFirst h, a.place_numberedFragments]

def weatherCall (json : JsonCodec α) (input : α) : Block json :=
  .toolUse "toolu_1" "get_weather" input [json.marshal input]
    (by simpa [String.join_cons] using json.unmarshal_marshal input)

def toolAnswer (blocks : List (Block rawMessage)) : Answer rawMessage :=
  { id := "msg_1", model := "claude", stopReason := "tool_use", blocks := blocks }

theorem tool_indices_positions_calls :
    (toolAnswer [weatherCall rawMessage "[1]", weatherCall rawMessage "[2]"]).ToolsFirst ∧
      callsByPosition 0 (chunksOf
        (toolAnswer [weatherCall rawMessage "[1]", weatherCall rawMessage "[2]"]).events) =
          [⟨"toolu_1", "get_weather", "[1]"⟩, ⟨"toolu_1", "get_weather", "[2]"⟩] := by
  have hfirst :
      (toolAnswer [weatherCall rawMessage "[1]", weatherCall rawMessage "[2]"]).ToolsFirst := by
    decide
  constructor
  · exact hfirst
  · rw [((tool_indices_positions_iff rawMessage _).mpr hfirst).2]
    rfl

def textThenCall : Answer rawMessage :=
  toolAnswer [.text "" ["Let me check."], weatherCall rawMessage "[1]"]

/-- Behind a text the only call has index 1, and an array of the calls begins with a hole. -/
theorem tool_indices_positions_counterexample :
    fragmentsAt 0 (chunksOf textThenCall.events) =
        [(1, { id := "toolu_1", name := "get_weather" }), (1, { arguments := "[1]" })] ∧
      callsByPosition 0 (chunksOf textThenCall.events) =
        [{}, { id := "toolu_1", name := "get_weather", arguments := "[1]" }] := by
  decide

end NewApi.RelayClaude
