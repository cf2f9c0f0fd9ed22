import NewApi.Claude.Stream

/-!
# The same answer, streamed or not

`ResponseOpenAI2Claude` of `service/convert.go`, and what a Claude client
assembles from its result and from the events of a stream.
-/

namespace NewApi.Claude

open Foundation List Dto Emitter

universe u

/-! ## The answer as a whole -/

/-- `common.Unmarshal` into a map: the empty text is not JSON. -/
structure JsonReader (α : Type u) where
  unmarshal : String → Option α
  empty : α
  unmarshal_nothing : unmarshal "" = none

structure ContentItem where
  type : String
  text : Option String

inductive MessageContent where
  | null
  | text (text : String)
  | items (items : List ContentItem)

def MessageContent.stringContent : MessageContent → String
  | .text s => s
  | .items list =>
    String.join (list.map fun item => if item.type = "text" then item.text.getD "" else "")
  | .null => ""

structure ToolCallRequest where
  id : String
  name : String
  arguments : String

structure TextResponseChoice where
  content : MessageContent
  reasoningContent : String
  toolCalls : List ToolCallRequest
  finishReason : String

open TextResponseChoice

structure OpenAITextResponse where
  id : String
  model : String
  choices : List TextResponseChoice
  usage : Usage

inductive ToolInput (α : Type u) where
  | object (value : α)
  | raw (arguments : String)
  deriving DecidableEq

inductive ClaudeContent (α : Type u) where
  | text (text : String)
  | thinking (thinking : String)
  | toolUse (id name : String) (input : ToolInput α)

structure ClaudeResponse (α : Type u) where
  id : String
  model : String
  content : List (ClaudeContent α)
  stopReason : String
  usage : ClaudeUsage

variable {α : Type u} (json : JsonReader α)

def toolInput (arguments : String) : ToolInput α :=
  match json.unmarshal arguments with
  | some value => .object value
  | none => .raw arguments

def ToolCallRequest.toolUse (t : ToolCallRequest) : ClaudeContent α :=
  .toolUse t.id t.name (toolInput json t.arguments)

def TextResponseChoice.contents (choice : TextResponseChoice) : List (ClaudeContent α) :=
  if choice.finishReason = "tool_calls" then choice.toolCalls.map (ToolCallRequest.toolUse json)
  else [.text choice.content.stringContent]

def responseOpenAI2Claude (response : OpenAITextResponse) : ClaudeResponse α :=
  { id := response.id
    model := response.model
    content := response.choices.flatMap (contents json)
    stopReason := (response.choices.getLast?.map fun choice =>
      stopReasonOpenAI2Claude choice.finishReason).getD ""
    usage := buildClaudeUsageFromOpenAIUsage response.usage }

/-! ## The client -/

inductive OpenBlock where
  | text (text : String)
  | thinking (thinking : String)
  | toolUse (id name partialJson : String)

open OpenBlock

namespace OpenBlock

def start : ContentBlock → OpenBlock
  | .text => .text ""
  | .thinking => .thinking ""
  | .toolUse id name => .toolUse id name ""

def extend : OpenBlock → BlockDelta → OpenBlock
  | .text s, .textDelta more => .text (s ++ more)
  | .thinking s, .thinkingDelta more => .thinking (s ++ more)
  | .toolUse id name s, .inputJsonDelta more => .toolUse id name (s ++ more)
  | block, _ => block

/-- A tool block starts with an empty object, which stays if no fragment comes. -/
def close : OpenBlock → ClaudeContent α
  | .text s => .text s
  | .thinking s => .thinking s
  | .toolUse id name s =>
    .toolUse id name (if s = "" then .object json.empty else toolInput json s)

end OpenBlock

abbrev Transcript := List (Int × OpenBlock)

def readBlocks (r : Transcript) : ClaudeEvent → Transcript
  | .messageStart .. => []
  | .contentBlockStart index block => r ++ [(index, .start block)]
  | .contentBlockDelta index delta =>
    r.map fun p => if p.1 = index then (p.1, p.2.extend delta) else p
  | _ => r

def assemble (events : List ClaudeEvent) : List (ClaudeContent α) :=
  (events.foldl readBlocks []).map fun p => close json p.2

structure Answer (α : Type u) where
  text : String
  thinking : String
  toolCalls : List (String × String × ToolInput α)
  deriving DecidableEq

namespace ClaudeContent

def textOf : ClaudeContent α → String
  | .text s => s
  | _ => ""

def thinkingOf : ClaudeContent α → String
  | .thinking s => s
  | _ => ""

def toolCallOf : ClaudeContent α → Option (String × String × ToolInput α)
  | .toolUse id name input => some (id, name, input)
  | _ => none

def answer (contents : List (ClaudeContent α)) : Answer α :=
  { text := String.join (contents.map textOf)
    thinking := String.join (contents.map thinkingOf)
    toolCalls := contents.filterMap toolCallOf }

end ClaudeContent

/-! ## The answer in pieces -/

namespace TextResponseChoice

def piece (id model : String) (delta : ChoiceDelta) : Chunk :=
  { id := id, model := model, choices := [⟨delta, none⟩], usage := none }

def optionalPiece (id model text : String) (delta : ChoiceDelta) : List Chunk :=
  if text = "" then [] else [piece id model delta]

def toolPieces (id model : String) : Int → List ToolCallRequest → List Chunk
  | _, [] => []
  | index, t :: toolCalls =>
    piece id model { toolCalls := [⟨some index, t.id, t.name, t.arguments⟩] } ::
      toolPieces id model (index + 1) toolCalls

def finishPiece (id model finishReason : String) (usage : Usage) : Chunk :=
  { id := id, model := model, choices := [⟨{}, some finishReason⟩], usage := some usage }

def chunks (id model : String) (usage : Usage) (choice : TextResponseChoice) : List Chunk :=
  piece id model { content := some "" } ::
    (optionalPiece id model choice.reasoningContent
        { reasoningContent := some choice.reasoningContent } ++
      optionalPiece id model choice.content.stringContent
        { content := some choice.content.stringContent } ++
      toolPieces id model 0 choice.toolCalls) ++
    [finishPiece id model choice.finishReason usage]

end TextResponseChoice

/-! ## The blocks of the stream -/

def ConvertInfo.nextIndex (info : ConvertInfo) : Int :=
  match info.lastMessagesType with
  | .none => info.index
  | .tools => info.toolCallBaseIndex + info.toolCallMaxIndexOffset + 1
  | _ => info.index + 1

structure Assembled (blocks : List OpenBlock) (kind : LastMessageType) (tools : Int)
    (r : Transcript) (info : ConvertInfo) : Prop where
  read : r.map Prod.snd = blocks
  below : ∀ p ∈ r, p.1 < info.nextIndex
  last : info.lastMessagesType = kind
  begun : if kind = .tools then info.toolCallMaxIndexOffset + 1 = tools else tools = 0

@[simp] theorem readBlocks_start (r : Transcript) (index : Int) (block : ContentBlock) :
    readBlocks r (.contentBlockStart index block) = r ++ [(index, .start block)] := rfl

theorem foldl_readBlocks_eq {events : List ClaudeEvent} (h : ∀ e ∈ events, ∀ r, readBlocks r e = r)
    (r : Transcript) : events.foldl readBlocks r = r := by
  induction events with
  | nil => rfl
  | cons e events ih =>
    rw [foldl_cons, h e mem_cons_self]
    exact ih fun e' he' => h e' (mem_cons_of_mem e he')

private theorem foldl_readBlocks_stops (r : Transcript) (info : ConvertInfo) :
    (stopOpenBlocks info).foldl readBlocks r = r :=
  foldl_readBlocks_eq (forall_stopOpenBlocks (fun _ _ => rfl) info) r

theorem foldl_finishMessage (usage : Option Usage) (stopReason : String) (r : Transcript)
    (info : ConvertInfo) : (finishMessage usage stopReason info).1.foldl readBlocks r = r :=
  foldl_readBlocks_eq
    (emits_finishMessage usage (fun _ _ => rfl) (fun _ _ => rfl) (fun _ => rfl) info) r

variable {r : Transcript} {i : Int}

theorem readBlocks_delta (h : ∀ p ∈ r, p.1 < i) (block : OpenBlock) (delta : BlockDelta) :
    readBlocks (r ++ [(i, block)]) (.contentBlockDelta i delta) =
      r ++ [(i, block.extend delta)] := by
  have hold : (r.map fun p => if p.1 = i then (p.1, p.2.extend delta) else p) = r := by
    refine (map_congr_left fun p hp => ?_).trans (map_id r)
    simp [(h p hp).ne]
  simp [readBlocks, hold]

private theorem readBlocks_delta_unknown (h : ∀ p ∈ r, p.1 < i) (delta : BlockDelta) :
    readBlocks r (.contentBlockDelta i delta) = r := by
  refine (map_congr_left fun p hp => ?_).trans (map_id r)
  simp [(h p hp).ne]

def ToolCallRequest.startedBlocks (t : ToolCallRequest) : List OpenBlock :=
  if t.name = "" then [] else [.toolUse t.id t.name t.arguments]

theorem foldl_toolFragment (t : ToolCallRequest) (position : Int) {tools : Int} {info : ConvertInfo}
    (hbelow : ∀ p ∈ r, p.1 < info.toolCallBaseIndex + tools) :
    (toolFragment position ⟨some tools, t.id, t.name, t.arguments⟩ info).1.foldl readBlocks r =
      r ++ t.startedBlocks.map fun block => (info.toolCallBaseIndex + tools, block) := by
  unfold ToolCallRequest.startedBlocks
  by_cases hname : t.name = "" <;> by_cases harguments : t.arguments = ""
  · simp [toolFragment, hname, harguments]
  · simp [toolFragment, ToolCallResponse.offset, hname, harguments, readBlocks_delta_unknown hbelow]
  · simp [toolFragment, ToolCallResponse.offset, hname, harguments, start]
  · have hdelta := readBlocks_delta hbelow (.start (.toolUse t.id t.name))
      (.inputJsonDelta t.arguments)
    simpa [toolFragment, ToolCallResponse.offset, hname, harguments, start, extend] using hdelta

section

variable {blocks : List OpenBlock} {kind kind' : LastMessageType} {tools : Int}

theorem advance_assembled :
    Triple readBlocks (Assembled blocks kind tools) stopOpenBlocksAndAdvance
      (fun r info => r.map Prod.snd = blocks ∧ (∀ p ∈ r, p.1 < info.index) ∧
        info.lastMessagesType = .none) := by
  intro r info h
  rw [stopOpenBlocksAndAdvance_events, foldl_readBlocks_stops]
  refine ⟨h.read, ?_, ?_⟩
  · intro p hp
    have hbelow := h.below p hp
    cases hlast : info.lastMessagesType <;>
      simpa [stopOpenBlocksAndAdvance, ConvertInfo.nextIndex, hlast] using hbelow
  · cases hlast : info.lastMessagesType <;> simp [stopOpenBlocksAndAdvance, hlast]

private theorem block_assembled (hnew : kind ≠ kind') (hkind : kind' = .text ∨ kind' = .thinking)
    (block : ContentBlock) (delta : BlockDelta) :
    Triple readBlocks (Assembled blocks kind tools)
      ((startBlock kind' block).andThen (emitDelta delta))
      (Assembled (blocks ++ [(start block).extend delta]) kind' 0) := by
  intro r info h
  obtain ⟨hread, hbelow, -⟩ := advance_assembled r info h
  have hlast : info.lastMessagesType ≠ kind' := h.last ▸ hnew
  simp only [andThen, startBlock, hlast, if_false, emitDelta, emit, foldl_append,
    foldl_cons, foldl_nil]
  rw [readBlocks_start, readBlocks_delta hbelow]
  have hnext : ∀ info : ConvertInfo, info.lastMessagesType = kind' →
      info.nextIndex = info.index + 1 := by
    intro info hinfo
    rcases hkind with rfl | rfl <;> simp [ConvertInfo.nextIndex, hinfo]
  refine ⟨by simp [hread], ?_, rfl, ?_⟩
  · intro p hp
    rw [hnext _ rfl]
    rcases mem_append.mp hp with hp | hp
    · have := hbelow p hp
      dsimp only
      omega
    · obtain rfl := mem_singleton.mp hp
      exact Int.lt_add_one_iff.mpr (Int.le_refl _)
  · rcases hkind with rfl | rfl <;> rfl

def ToolReady (blocks : List OpenBlock) (tools : Int) (r : Transcript) (info : ConvertInfo) :
    Prop :=
  r.map Prod.snd = blocks ∧ (∀ p ∈ r, p.1 < info.toolCallBaseIndex + tools) ∧
    info.lastMessagesType = .tools ∧
    (info.toolCallMaxIndexOffset + 1 = tools ∨ info.toolCallMaxIndexOffset = tools)

private theorem enterTools_assembled :
    Triple readBlocks (Assembled blocks kind tools) enterTools (ToolReady blocks tools) := by
  intro r info h
  unfold enterTools
  by_cases hlast : info.lastMessagesType = .tools
  · have hkind : kind = .tools := h.last.symm.trans hlast
    have hbegun := h.begun
    rw [if_pos hkind] at hbegun
    rw [if_pos hlast]
    refine ⟨h.read, fun p hp => ?_, hlast, .inl hbegun⟩
    have hbelow := h.below p hp
    simp only [ConvertInfo.nextIndex, hlast] at hbelow
    dsimp only
    omega
  · have hkind : kind ≠ .tools := fun hkind => hlast (h.last.trans hkind)
    have hbegun := h.begun
    rw [if_neg hkind] at hbegun
    subst hbegun
    obtain ⟨hread, hbelow, -⟩ := advance_assembled r info h
    rw [if_neg hlast]
    simp only [andThen, append_nil]
    refine ⟨hread, fun p hp => ?_, rfl, .inr rfl⟩
    have := hbelow p hp
    dsimp only
    omega

private theorem toolFragment_assembled (t : ToolCallRequest) (position : Int) :
    Triple readBlocks (ToolReady blocks tools)
      (toolFragment position ⟨some tools, t.id, t.name, t.arguments⟩)
      (fun r info => r.map Prod.snd = blocks ++ t.startedBlocks ∧
        (∀ p ∈ r, p.1 < info.toolCallBaseIndex + tools + 1) ∧
        info.lastMessagesType = .tools ∧ info.toolCallMaxIndexOffset = tools) := by
  rintro r info ⟨hread, hbelow, hlast, hmax⟩
  have hoffset : max info.toolCallMaxIndexOffset tools = tools := by omega
  rw [foldl_toolFragment t position hbelow]
  refine ⟨by simp [hread, Function.comp_def], ?_, hlast, hoffset⟩
  intro p hp
  change p.1 < info.toolCallBaseIndex + tools + 1
  rcases mem_append.mp hp with hp | hp
  · have := hbelow p hp
    omega
  · obtain ⟨block, -, rfl⟩ := mem_map.mp hp
    dsimp only
    omega

private theorem tool_assembled (t : ToolCallRequest) :
    Triple readBlocks (Assembled blocks kind tools)
      (laterContent { toolCalls := [⟨some tools, t.id, t.name, t.arguments⟩] })
      (Assembled (blocks ++ t.startedBlocks) .tools (tools + 1)) := by
  have hloop : Triple readBlocks (ToolReady blocks tools)
      (toolFragments 0 [⟨some tools, t.id, t.name, t.arguments⟩]) _ :=
    (toolFragment_assembled t 0).andThen (Triple.skip fun _ _ h => h)
  refine enterTools_assembled.andThen (hloop.andThen ?_)
  rintro r info ⟨hread, hbelow, hlast, hmax⟩
  refine ⟨hread, fun p hp => ?_, hlast, ?_⟩
  · have := hbelow p hp
    simp only [leaveTools, ConvertInfo.nextIndex, hlast, hmax]
    omega
  · simp [leaveTools, hmax]

end

/-! ### Deliveries -/

/-- Inside the message; a finish chunk that follows the first chunk at once is
itself taken for a first chunk. -/
def Streaming (blocks : List OpenBlock) (kinds : List LastMessageType) (tools : Int)
    (r : Transcript) (info : ConvertInfo) : Prop :=
  (∃ kind ∈ kinds, Assembled blocks kind tools r info) ∧ info.done = false ∧
    1 ≤ info.sendResponseCount ∧ (info.sendResponseCount = 1 → blocks = [])

section

variable {blocks blocks' : List OpenBlock} {kinds kinds' : List LastMessageType}
  {tools tools' : Int} (usage : Usage) (id model : String)

private theorem deliver_role (estimate : Int) :
    Triple readBlocks (fun r info => r = [] ∧ info = .start estimate)
      (deliver usage (.next (piece id model { content := some "" })))
      (Streaming [] [.none] 0) := by
  rintro r info ⟨rfl, rfl⟩
  refine ⟨⟨.none, mem_singleton.mpr rfl, rfl, ?_, rfl, rfl⟩, rfl, Int.le_refl 1, fun _ => rfl⟩
  intro p hp
  exact absurd hp not_mem_nil

variable {d : ChoiceDelta} {text : String}

theorem deliver_piece
    (h : ∀ kind ∈ kinds, ∃ kind' ∈ kinds', Triple readBlocks (Assembled blocks kind tools)
      (laterContent d) (Assembled blocks' kind' tools')) :
    Triple readBlocks (Streaming blocks kinds tools)
      (deliver usage (.next (piece id model d)))
      (Streaming blocks' kinds' tools') := by
  rintro r info ⟨⟨kind, hkind, hassembled⟩, hdone, hcount, -⟩
  obtain ⟨kind', hkind', htriple⟩ := h kind hkind
  have hlater : ¬ info.sendResponseCount + 1 = 1 := by omega
  have heq : deliver usage (.next (piece id model d)) info =
      laterContent d { info with sendResponseCount := info.sendResponseCount + 1 } := by
    simp [deliver, handleStreamFormat, handleClaudeFormat, streamResponseOpenAI2Claude,
      piece, hdone, hlater, laterChunk, StreamChoice.reason]
  rw [heq]
  have hkeeps := keeps_laterContent d { info with sendResponseCount := info.sendResponseCount + 1 }
  simp only [ConvertInfo.control, Prod.mk.injEq] at hkeeps
  refine ⟨⟨kind', hkind', htriple r _ ?_⟩, hkeeps.1.trans hdone, ?_, ?_⟩
  · exact { hassembled with }
  · omega
  · omega

theorem laterContent_thinking (h : text ≠ "") : laterContent { reasoningContent := some text } =
      (startBlock .thinking .thinking).andThen (emitDelta (.thinkingDelta text)) := by
  simp [laterContent, ChoiceDelta.getReasoningContent, h]

private theorem laterContent_text (h : text ≠ "") : laterContent { content := some text } =
      (startBlock .text .text).andThen (emitDelta (.textDelta text)) := by
  simp [laterContent, ChoiceDelta.getReasoningContent, ChoiceDelta.getContentString, h]

theorem deliver_content {target : LastMessageType} {block : ContentBlock} {delta : BlockDelta}
    {final : OpenBlock}
    (hcontent : text ≠ "" → laterContent d = (startBlock target block).andThen (emitDelta delta))
    (hfinal : (start block).extend delta = final)
    (htarget : target = .text ∨ target = .thinking)
    (hkinds : ∀ kind ∈ kinds, kind ≠ target ∧ kind ∈ kinds') (hmem : target ∈ kinds') :
    Triple readBlocks (Streaming blocks kinds 0)
      (forEach (deliver usage) ((optionalPiece id model text d).map .next))
      (Streaming (blocks ++ if text = "" then [] else [final]) kinds' 0) := by
  unfold optionalPiece
  by_cases htext : text = ""
  · rw [if_pos htext, if_pos htext, append_nil]
    refine Triple.skip ?_
    rintro r info ⟨⟨kind, hkind, hassembled⟩, hrest⟩
    exact ⟨⟨kind, (hkinds kind hkind).2, hassembled⟩, hrest⟩
  · rw [if_neg htext, if_neg htext]
    refine Triple.singleton (deliver_piece usage id model fun kind hkind => ⟨target, hmem, ?_⟩)
    rw [hcontent htext, ← hfinal]
    exact block_assembled (hkinds kind hkind).1 htarget block delta

def anyKind : List LastMessageType := [.none, .thinking, .text, .tools]

private theorem deliver_tools (toolCalls : List ToolCallRequest) :
    Triple readBlocks (Streaming blocks anyKind tools)
      (forEach (deliver usage) ((toolPieces id model tools toolCalls).map .next))
      (Streaming (blocks ++ toolCalls.flatMap ToolCallRequest.startedBlocks) anyKind
        (tools + toolCalls.length)) := by
  induction toolCalls generalizing blocks tools with
  | nil =>
    intro r info h
    simpa [toolPieces, forEach, skip] using h
  | cons t toolCalls ih =>
    have hfirst : Triple readBlocks (Streaming blocks anyKind tools)
        (deliver usage (.next (piece id model
          { toolCalls := [⟨some tools, t.id, t.name, t.arguments⟩] })))
        (Streaming (blocks ++ t.startedBlocks) anyKind (tools + 1)) :=
      deliver_piece usage id model fun kind _ => ⟨.tools, by simp [anyKind], tool_assembled t⟩
    refine (hfirst.cons ih).weaken ?_
    intro r info h
    rw [flatMap_cons, ← append_assoc, length_cons, Nat.cast_succ,
      Int.add_comm (toolCalls.length : Int) 1, ← Int.add_assoc]
    exact h

theorem laterContent_empty : laterContent {} = skip := rfl

private theorem firstContent_empty : firstContent {} = skip := rfl

private theorem foldl_firstFinish (chunk : Chunk) (choice : StreamChoice) (r : Transcript)
    (info : ConvertInfo) : (firstFinish chunk choice info).1.foldl readBlocks r = r := by
  unfold firstFinish
  split
  · exact foldl_finishMessage ..
  · rfl

theorem foldl_laterChunk_empty (chunk : Chunk) (finishReason : Option String) (r : Transcript)
    (info : ConvertInfo) :
    (laterChunk chunk { delta := {}, finishReason := finishReason } info).1.foldl readBlocks r =
      r := by
  unfold laterChunk
  split
  · simp [laterContent_empty, skip]
  cases chunk.usage with
  | none => rfl
  | some => simp [laterContent_empty, skip, andThen, foldl_finishMessage]

private theorem deliver_finishPiece (finishReason : String) (seen : Usage) :
    Triple readBlocks (Streaming blocks kinds tools)
      (deliver usage (.last (finishPiece id model finishReason seen)))
      (fun r _ => r.map Prod.snd = blocks) := by
  rintro r info ⟨⟨kind, hkind, hassembled⟩, hdone, hcount, hfirst⟩
  by_cases hone : info.sendResponseCount = 1
  · -- taken for a first chunk: the message starts again, but it had no blocks
    rw [hfirst hone]
    simp [deliver, handleFinalResponse, streamResponseOpenAI2Claude, hdone, hone, firstChunk,
      finishPiece, andThen, sendMessageStart, emit, firstToolCalls,
      firstContent_empty, skip, readBlocks, foldl_firstFinish]
  · rw [← hassembled.read]
    simp [deliver, handleFinalResponse, streamResponseOpenAI2Claude, hdone, hone,
      finishPiece, foldl_laterChunk_empty]

end

/-! ## The two answers -/

def TextResponseChoice.streamedBlocks (choice : TextResponseChoice) : List OpenBlock :=
  (if choice.reasoningContent = "" then [] else [.thinking choice.reasoningContent]) ++
    (if choice.content.stringContent = "" then [] else [.text choice.content.stringContent]) ++
    choice.toolCalls.flatMap ToolCallRequest.startedBlocks

private theorem foldl_readBlocks_stream (estimate : Int) (usage seen : Usage) (id model : String)
    (choice : TextResponseChoice) :
    ((oaiStreamHandler estimate usage (choice.chunks id model seen)).foldl readBlocks []).map
      Prod.snd = choice.streamedBlocks := by
  have hthinking : Triple readBlocks (Streaming [] [.none] 0) _
      (Streaming ([] ++ if choice.reasoningContent = "" then []
        else [.thinking choice.reasoningContent]) [.none, .thinking] 0) :=
    deliver_content usage id model laterContent_thinking
      (by simp [start, extend]) (.inr rfl) (by simp) (by simp)
  have htext : ∀ blocks, Triple readBlocks (Streaming blocks [.none, .thinking] 0) _
      (Streaming (blocks ++ if choice.content.stringContent = "" then []
        else [.text choice.content.stringContent]) anyKind 0) := fun _ =>
    deliver_content usage id model laterContent_text
      (by simp [start, extend]) (.inl rfl) (by simp [anyKind])
      (by simp [anyKind])
  have hpieces :=
    (hthinking.append (htext _)).append (deliver_tools usage id model choice.toolCalls)
  have hfinish : ∀ blocks tools, Triple readBlocks (Streaming blocks anyKind tools)
      (forEach (deliver usage) [.last (finishPiece id model choice.finishReason seen)])
      (fun r _ => r.map Prod.snd = blocks) := fun _ _ =>
    Triple.singleton (deliver_finishPiece usage id model choice.finishReason seen)
  have hrun := ((deliver_role usage id model estimate).cons hpieces).append (hfinish _ _)
  have hdeliveries : deliveries (choice.chunks id model seen) = _ :=
    deliveries_concat (_ :: _) (finishPiece id model choice.finishReason seen)
  rw [← map_append, ← map_append, ← map_cons, ← hdeliveries] at hrun
  exact hrun [] (.start estimate) ⟨rfl, rfl⟩

namespace ClaudeContent

@[simp] theorem answer_nil : answer ([] : List (ClaudeContent α)) = ⟨"", "", []⟩ := rfl

@[simp] theorem answer_text (s : String) : answer [(.text s : ClaudeContent α)] = ⟨s, "", []⟩ := by
  simp [answer, textOf, thinkingOf, filterMap_cons, toolCallOf]

@[simp] theorem answer_thinking (s : String) :
    answer [(.thinking s : ClaudeContent α)] = ⟨"", s, []⟩ := by
  simp [answer, textOf, thinkingOf, filterMap_cons, toolCallOf]

@[simp] theorem answer_toolUse (id name : String) (input : ToolInput α) :
    answer [.toolUse id name input] = ⟨"", "", [(id, name, input)]⟩ := by
  simp [answer, textOf, thinkingOf, toolCallOf]

theorem answer_append (first second : List (ClaudeContent α)) :
    answer (first ++ second) =
      ⟨(answer first).text ++ (answer second).text,
        (answer first).thinking ++ (answer second).thinking,
        (answer first).toolCalls ++ (answer second).toolCalls⟩ := by
  simp [answer]

end ClaudeContent

open ClaudeContent (answer answer_append)

namespace ToolCallRequest

def call (t : ToolCallRequest) : String × String × ToolInput α :=
  (t.id, t.name, toolInput json t.arguments)

def streamedCall (t : ToolCallRequest) : String × String × ToolInput α :=
  (t.id, t.name, if t.arguments = "" then .object json.empty else toolInput json t.arguments)

private theorem answer_toolUses (toolCalls : List ToolCallRequest) :
    answer (toolCalls.map (toolUse json)) = ⟨"", "", toolCalls.map (call json)⟩ := by
  induction toolCalls with
  | nil => rfl
  | cons t toolCalls ih =>
    rw [map_cons, ← singleton_append, answer_append, ih]
    simp [toolUse, call]

private theorem answer_startedBlocks (toolCalls : List ToolCallRequest) :
    answer ((toolCalls.flatMap startedBlocks).map (close json)) =
      ⟨"", "", (toolCalls.filter fun t => t.name ≠ "").map (streamedCall json)⟩ := by
  induction toolCalls with
  | nil => rfl
  | cons t toolCalls ih =>
    rw [flatMap_cons, map_append, answer_append, ih]
    by_cases hname : t.name = ""
    · simp [startedBlocks, hname]
    · simp [startedBlocks, hname, close, streamedCall]

private theorem call_eq_streamedCall_iff (t : ToolCallRequest) :
    t.call json = t.streamedCall json ↔ t.arguments ≠ "" := by
  by_cases h : t.arguments = ""
  · simp [call, streamedCall, h, toolInput, json.unmarshal_nothing]
  · simp [call, streamedCall, h]

end ToolCallRequest

private theorem map_eq_map_filter_iff {β γ : Type*} (f g : β → γ) (p : β → Bool) (list : List β) :
    list.map f = (list.filter p).map g ↔ ∀ a ∈ list, p a = true ∧ f a = g a := by
  constructor
  · intro h
    have hlength := congrArg List.length h
    rw [length_map, length_map] at hlength
    have hall : list.filter p = list := filter_sublist.eq_of_length hlength.symm
    rw [hall] at h
    intro a ha
    exact ⟨filter_eq_self.mp hall a ha, map_inj_left.mp h a ha⟩
  · intro h
    rw [filter_eq_self.mpr fun a ha => (h a ha).1]
    exact map_congr_left fun a ha => (h a ha).2

private theorem answer_streamed (estimate : Int) (usage seen : Usage) (id model : String)
    (choice : TextResponseChoice) :
    answer (assemble json (oaiStreamHandler estimate usage (choice.chunks id model seen))) =
      ⟨choice.content.stringContent, choice.reasoningContent,
        (choice.toolCalls.filter fun t => t.name ≠ "").map
          (ToolCallRequest.streamedCall json)⟩ := by
  have hblocks := foldl_readBlocks_stream estimate usage seen id model choice
  have hassemble : assemble json (oaiStreamHandler estimate usage (choice.chunks id model seen)) =
      choice.streamedBlocks.map (close json) := by
    rw [← hblocks, map_map]
    rfl
  rw [hassemble, streamedBlocks, map_append, map_append,
    answer_append, answer_append, ToolCallRequest.answer_startedBlocks]
  by_cases hthinking : choice.reasoningContent = "" <;>
    by_cases htext : choice.content.stringContent = "" <;>
      simp [hthinking, htext, close]

def TextResponseChoice.SameEitherWay (choice : TextResponseChoice) : Prop :=
  choice.reasoningContent = "" ∧
    if choice.finishReason = "tool_calls" then
      choice.content.stringContent = "" ∧ ∀ t ∈ choice.toolCalls, t.name ≠ "" ∧ t.arguments ≠ ""
    else ∀ t ∈ choice.toolCalls, t.name = ""

/--
A client reads the same answer from the stream and from the whole response
exactly if the message has no thinking and its finish reason fits its content.
-/
theorem responseOpenAI2Claude_answer_iff (estimate : Int) (usage seen : Usage) (id model : String)
    (choice : TextResponseChoice) :
    answer (responseOpenAI2Claude json ⟨id, model, [choice], seen⟩).content =
        answer (assemble json (oaiStreamHandler estimate usage (choice.chunks id model seen))) ↔
      choice.SameEitherWay := by
  rw [answer_streamed, responseOpenAI2Claude, flatMap_singleton]
  unfold contents TextResponseChoice.SameEitherWay
  by_cases hfinish : choice.finishReason = "tool_calls"
  · rw [if_pos hfinish, if_pos hfinish, ToolCallRequest.answer_toolUses]
    simp only [Answer.mk.injEq, map_eq_map_filter_iff, ToolCallRequest.call_eq_streamedCall_iff,
      decide_eq_true_eq, eq_comm (a := "")]
    tauto
  · rw [if_neg hfinish, if_neg hfinish, ClaudeContent.answer_text]
    simp only [Answer.mk.injEq, true_and, eq_comm (a := ""), eq_comm (a := []),
      map_eq_nil_iff, filter_eq_nil_iff, decide_eq_true_eq, not_not]

def emptyObjects : JsonReader String where
  unmarshal s := if s = emptyObject then some s else none
  empty := emptyObject
  unmarshal_nothing := rfl

def fullChoice : TextResponseChoice where
  content := .text "Looking"
  reasoningContent := "hm"
  toolCalls := [⟨"call_1", "find", emptyObject⟩]
  finishReason := "tool_calls"

/-- The whole response has the tool call only. -/
theorem responseOpenAI2Claude_answer_counterexample :
    answer (responseOpenAI2Claude emptyObjects ⟨"chatcmpl-1", "gpt-4o", [fullChoice], {}⟩).content =
        ⟨"", "", [("call_1", "find", .object emptyObject)]⟩ ∧
      answer (assemble emptyObjects
          (oaiStreamHandler 0 {} (fullChoice.chunks "chatcmpl-1" "gpt-4o" {}))) =
        ⟨"Looking", "hm", [("call_1", "find", .object emptyObject)]⟩ := by
  decide

end NewApi.Claude
