import Mathlib.Algebra.Order.Ring.Int
import NewApi.Dto.ChatStream
import NewApi.Foundation.Blocks
import NewApi.Foundation.Emit

/-!
# From chat completion chunks to Claude events

`StreamResponseOpenAI2Claude` of `service/convert.go`, and the two handlers of
`relay/channel/openai/helper.go` that drive it: every chunk but the last goes
through `HandleStreamFormat`, the last one through `HandleFinalResponse`.
-/

namespace NewApi.Claude

open Foundation List Dto

structure ToolCallResponse where
  index : Option Int
  id : String
  name : String
  arguments : String

structure ChoiceDelta where
  content : Option String := none
  reasoningContent : Option String := none
  reasoning : Option String := none
  toolCalls : List ToolCallResponse := []

namespace ChoiceDelta

def getContentString (d : ChoiceDelta) : String := d.content.getD ""

def getReasoningContent (d : ChoiceDelta) : String :=
  match d.reasoningContent with
  | some text => text
  | none => d.reasoning.getD ""

end ChoiceDelta

structure StreamChoice where
  delta : ChoiceDelta := {}
  finishReason : Option String := none

structure Chunk where
  id : String
  model : String
  choices : List StreamChoice
  usage : Option Usage

def StreamChoice.reason (choice : StreamChoice) : String := choice.finishReason.getD ""

def Chunk.delta (chunk : Chunk) : ChoiceDelta :=
  match chunk.choices with
  | [] => {}
  | choice :: _ => choice.delta

def Chunk.reason (chunk : Chunk) : String :=
  match chunk.choices with
  | [] => ""
  | choice :: _ => choice.reason

def emptyObject : String := "\x7b\x7d"

def chunkOf (delta : ChoiceDelta) (finishReason : Option String := none)
    (usage : Option Usage := none) : Chunk :=
  { id := "chatcmpl-1", model := "gpt-4o", choices := [⟨delta, finishReason⟩], usage := usage }

inductive ContentBlock where
  | text
  | thinking
  | toolUse (id name : String)

inductive BlockDelta where
  | textDelta (text : String)
  | thinkingDelta (thinking : String)
  | inputJsonDelta (partialJson : String)

inductive ClaudeEvent where
  | messageStart (id model : String) (inputTokens : Int)
  | contentBlockStart (index : Int) (block : ContentBlock)
  | contentBlockDelta (index : Int) (delta : BlockDelta)
  | contentBlockStop (index : Int)
  | messageDelta (usage : ClaudeUsage) (stopReason : String)
  | messageStop

inductive LastMessageType where
  | none
  | text
  | tools
  | thinking
  deriving DecidableEq

/-- `ClaudeConvertInfo`, with the two fields of `RelayInfo` that are read. -/
structure ConvertInfo where
  sendResponseCount : Int
  estimatePromptTokens : Int
  lastMessagesType : LastMessageType
  index : Int
  usage : Option Usage
  finishReason : String
  done : Bool
  toolCallBaseIndex : Int
  toolCallMaxIndexOffset : Int

open ConvertInfo

def ConvertInfo.start (estimatePromptTokens : Int) : ConvertInfo :=
  { sendResponseCount := 0, estimatePromptTokens := estimatePromptTokens
    lastMessagesType := .none, index := 0, usage := none, finishReason := "", done := false
    toolCallBaseIndex := 0, toolCallMaxIndexOffset := 0 }

abbrev Convert := Emitter ConvertInfo ClaudeEvent

def buildClaudeUsageFromOpenAIUsage (u : Usage) : ClaudeUsage :=
  let split := normalizeCacheCreationSplit u.promptTokensDetails.cachedCreationTokens
    u.claudeCacheCreation5mTokens u.claudeCacheCreation1hTokens
  { inputTokens := u.promptTokens
    outputTokens := u.completionTokens
    cacheCreationInputTokens := u.promptTokensDetails.cachedCreationTokens
    cacheReadInputTokens := u.promptTokensDetails.cachedTokens
    cacheCreation := if 0 < split.1 ∨ 0 < split.2 then some ⟨split.1, split.2⟩ else none }

def stopReasonOpenAI2Claude (reason : String) : String :=
  match reason.toLower with
  | "stop" => "end_turn"
  | "stop_sequence" => "stop_sequence"
  | "length" => "max_tokens"
  | "max_tokens" => "max_tokens"
  | "content_filter" => "refusal"
  | "tool_calls" => "tool_use"
  | _ => reason

def stopOpenBlocks (info : ConvertInfo) : List ClaudeEvent :=
  match info.lastMessagesType with
  | .none => []
  | .text | .thinking => [.contentBlockStop info.index]
  | .tools =>
    (List.range (info.toolCallMaxIndexOffset + 1).toNat).map fun offset : Nat =>
      .contentBlockStop (info.toolCallBaseIndex + (offset : Int))

def stopOpenBlocksAndAdvance : Convert := fun info =>
  match info.lastMessagesType with
  | .none => ([], info)
  | .tools =>
    (stopOpenBlocks info,
      { info with
        index := info.toolCallBaseIndex + info.toolCallMaxIndexOffset + 1
        toolCallBaseIndex := 0
        toolCallMaxIndexOffset := 0
        lastMessagesType := .none })
  | _ => (stopOpenBlocks info, { info with index := info.index + 1, lastMessagesType := .none })

/-- Close the blocks and end the message.  `message_delta` is sent only if
there is a usage to put into it. -/
def finishMessage (usage : Option Usage) (stopReason : String) : Convert := fun info =>
  (stopOpenBlocks info ++
    (usage.map fun u =>
      ClaudeEvent.messageDelta (buildClaudeUsageFromOpenAIUsage u) stopReason).toList ++
    [.messageStop],
    { info with done := true })

def startBlock (kind : LastMessageType) (block : ContentBlock) : Convert := fun info =>
  if info.lastMessagesType = kind then ([], info)
  else
    (stopOpenBlocksAndAdvance.andThen fun info =>
      ([.contentBlockStart info.index block], { info with lastMessagesType := kind })) info

def emitDelta (delta : BlockDelta) : Convert := .emit fun info =>
  [.contentBlockDelta info.index delta]

/-! ### The first chunk -/

def sendMessageStart (chunk : Chunk) : Convert := .emit fun info =>
  [.messageStart chunk.id chunk.model info.estimatePromptTokens]

/-- Only the first tool call of the chunk is sent. -/
def firstToolCalls (toolCalls : List ToolCallResponse) : Convert := fun info =>
  match toolCalls with
  | [] => ([], info)
  | toolCall :: _ =>
    (.contentBlockStart 0 (.toolUse toolCall.id toolCall.name) ::
      (if toolCall.arguments ≠ "" then
        [.contentBlockDelta 0 (.inputJsonDelta toolCall.arguments)] else []),
      { info with
        lastMessagesType := .tools, toolCallBaseIndex := 0, toolCallMaxIndexOffset := 0 })

def firstBlock (kind : LastMessageType) (block : ContentBlock) (delta : BlockDelta) : Convert :=
  Emitter.andThen
    (fun info => if info.lastMessagesType = kind then ([], info) else stopOpenBlocksAndAdvance info)
    fun info =>
      ([.contentBlockStart info.index block, .contentBlockDelta info.index delta],
        { info with lastMessagesType := kind })

def firstContent (delta : ChoiceDelta) : Convert :=
  if delta.getReasoningContent ≠ "" then
    firstBlock .thinking .thinking (.thinkingDelta delta.getReasoningContent)
  else if delta.getContentString ≠ "" then
    firstBlock .text .text (.textDelta delta.getContentString)
  else .skip

def firstFinish (chunk : Chunk) (choice : StreamChoice) : Convert := fun info =>
  if choice.reason ≠ "" then
    finishMessage (chunk.usage <|> info.usage) (stopReasonOpenAI2Claude choice.reason)
      { info with finishReason := choice.reason }
  else ([], info)

def firstChunk (chunk : Chunk) : Convert :=
  (sendMessageStart chunk).andThen <|
    match chunk.choices with
    | [] => .skip
    | choice :: _ =>
      (firstToolCalls choice.delta.toolCalls).andThen <|
        (firstContent choice.delta).andThen (firstFinish chunk choice)

/-! ### Later chunks -/

def usageOnlyChunk (chunk : Chunk) : Convert := fun info =>
  match chunk.usage <|> info.usage with
  | none => ([], info)
  | some usage =>
    let stopReason := stopReasonOpenAI2Claude info.finishReason
    finishMessage (some usage) (if stopReason = "" then "end_turn" else stopReason) info

def ToolCallResponse.offset (toolCall : ToolCallResponse) (position : Int) : Int :=
  toolCall.index.getD position

/-- One round of the loop; the loop variable `maxOffset` is kept in the field it
is stored to. -/
def toolFragment (position : Int) (toolCall : ToolCallResponse) : Convert := fun info =>
  let offset := toolCall.offset position
  let blockIndex := info.toolCallBaseIndex + offset
  ((if toolCall.name ≠ "" then
      [.contentBlockStart blockIndex (.toolUse toolCall.id toolCall.name)] else []) ++
    (if toolCall.arguments ≠ "" then
      [.contentBlockDelta blockIndex (.inputJsonDelta toolCall.arguments)] else []),
    { info with toolCallMaxIndexOffset := max info.toolCallMaxIndexOffset offset })

def toolFragments : Int → List ToolCallResponse → Convert
  | _, [] => .skip
  | position, toolCall :: toolCalls =>
    (toolFragment position toolCall).andThen (toolFragments (position + 1) toolCalls)

def enterTools : Convert := fun info =>
  if info.lastMessagesType = .tools then ([], info)
  else
    (stopOpenBlocksAndAdvance.andThen fun info =>
      ([], { info with
        toolCallBaseIndex := info.index
        toolCallMaxIndexOffset := 0
        lastMessagesType := .tools })) info

def leaveTools : Convert := fun info =>
  ([], { info with index := info.toolCallBaseIndex + info.toolCallMaxIndexOffset })

def laterContent (delta : ChoiceDelta) : Convert :=
  if delta.toolCalls ≠ [] then
    enterTools.andThen ((toolFragments 0 delta.toolCalls).andThen leaveTools)
  else if delta.getReasoningContent ≠ "" then
    (startBlock .thinking .thinking).andThen (emitDelta (.thinkingDelta delta.getReasoningContent))
  else if delta.getContentString ≠ "" then
    (startBlock .text .text).andThen (emitDelta (.textDelta delta.getContentString))
  else .skip

def laterChunk (chunk : Chunk) (choice : StreamChoice) : Convert := fun info =>
  if choice.reason = "" then laterContent choice.delta info
  else
    let info := { info with finishReason := choice.reason }
    match chunk.usage with
    -- the close is left to a chunk that brings the usage
    | none => ([], info)
    | some usage =>
      ((laterContent choice.delta).andThen
        (finishMessage (some usage) (stopReasonOpenAI2Claude choice.reason))) info

def streamResponseOpenAI2Claude (chunk : Chunk) : Convert := fun info =>
  if info.done = true then ([], info)
  else if info.sendResponseCount = 1 then firstChunk chunk info
  else
    match chunk.choices with
    | [] => usageOnlyChunk chunk info
    | choice :: _ => laterChunk chunk choice info

def handleClaudeFormat (chunk : Chunk) : Convert := fun info =>
  streamResponseOpenAI2Claude chunk { info with usage := chunk.usage <|> info.usage }

def handleStreamFormat (chunk : Chunk) : Convert := fun info =>
  handleClaudeFormat chunk { info with sendResponseCount := info.sendResponseCount + 1 }

/-- `usage` is the usage of the whole request, which always exists. -/
def handleFinalResponse (usage : Usage) (chunk : Chunk) : Convert := fun info =>
  let result := streamResponseOpenAI2Claude chunk { info with usage := some usage }
  (result.1, { result.2 with done := true })

inductive Delivery where
  | next (chunk : Chunk)
  | last (chunk : Chunk)

def Delivery.chunk : Delivery → Chunk
  | .next chunk | .last chunk => chunk

def deliveries : List Chunk → List Delivery
  | [] => []
  | [chunk] => [.last chunk]
  | chunk :: chunks => .next chunk :: deliveries chunks

theorem deliveries_concat (init : List Chunk) (c : Chunk) :
    deliveries (init ++ [c]) = init.map .next ++ [.last c] := by
  induction init with
  | nil => rfl
  | cons c' init ih =>
    rw [cons_append, map_cons, cons_append, ← ih]
    cases init <;> rfl

theorem deliveries_chunk (chunks : List Chunk) :
    (deliveries chunks).map Delivery.chunk = chunks := by
  induction chunks using deliveries.induct with
  | case1 | case2 => rfl
  | case3 chunk chunks hne ih => simp [deliveries, ih, Delivery.chunk]

def deliver (usage : Usage) : Delivery → Convert
  | .next chunk => handleStreamFormat chunk
  | .last chunk => handleFinalResponse usage chunk

def oaiStreamHandler (estimatePromptTokens : Int) (usage : Usage) (chunks : List Chunk) :
    List ClaudeEvent :=
  (Emitter.forEach (deliver usage) (deliveries chunks) (.start estimatePromptTokens)).1

open Emitter

theorem stopOpenBlocksAndAdvance_events (info : ConvertInfo) :
    (stopOpenBlocksAndAdvance info).1 = stopOpenBlocks info := by
  cases h : info.lastMessagesType <;> simp [stopOpenBlocksAndAdvance, stopOpenBlocks, h]

section

variable {p : ClaudeEvent → Prop}

section

variable (hstop : ∀ i, p (.contentBlockStop i))
include hstop

theorem forall_stopOpenBlocks (info : ConvertInfo) : ∀ e ∈ stopOpenBlocks info, p e := by
  intro e he
  unfold stopOpenBlocks at he
  split at he
  · contradiction
  · obtain rfl := mem_singleton.mp he
    exact hstop _
  · obtain rfl := mem_singleton.mp he
    exact hstop _
  · obtain ⟨offset, -, rfl⟩ := mem_map.mp he
    exact hstop _

theorem emits_advance : Emits p stopOpenBlocksAndAdvance := by
  intro info e he
  rw [stopOpenBlocksAndAdvance_events] at he
  exact forall_stopOpenBlocks hstop info e he

theorem emits_startBlock {block : ContentBlock} (hstart : ∀ i, p (.contentBlockStart i block))
    (kind : LastMessageType) : Emits p (startBlock kind block) := by
  intro info
  unfold startBlock
  split
  · simp
  refine (emits_advance hstop).andThen ?_ info
  intro info e he
  obtain rfl := mem_singleton.mp he
  exact hstart _

theorem emits_enterTools : Emits p enterTools := by
  intro info
  unfold enterTools
  split
  · simp
  refine (emits_advance hstop).andThen ?_ info
  intro info e he
  contradiction

end

theorem emits_finishMessage (usage : Option Usage) {stopReason : String}
    (hstop : ∀ i, p (.contentBlockStop i)) (hdelta : ∀ u, p (.messageDelta u stopReason))
    (hend : p .messageStop) : Emits p (finishMessage usage stopReason) := by
  intro info e he
  simp only [finishMessage, mem_append, Option.mem_toList, Option.map_eq_some_iff,
    mem_singleton] at he
  rcases he with (he | ⟨u, -, rfl⟩) | rfl
  · exact forall_stopOpenBlocks hstop info e he
  · exact hdelta _
  · exact hend

end

def ConvertInfo.control (info : ConvertInfo) : Bool × Int × Option Usage :=
  (info.done, info.sendResponseCount, info.usage)

theorem keeps_advance : Keeps ConvertInfo.control stopOpenBlocksAndAdvance := by
  intro info
  cases h : info.lastMessagesType <;> simp [stopOpenBlocksAndAdvance, h, ConvertInfo.control]

private theorem keeps_startBlock (kind : LastMessageType) (block : ContentBlock) :
    Keeps control (startBlock kind block) := by
  intro info
  unfold startBlock
  split
  · rfl
  · exact keeps_advance.andThen (fun _ => rfl) info

theorem keeps_block (kind : LastMessageType) (block : ContentBlock) (delta : BlockDelta) :
    Keeps control ((startBlock kind block).andThen (emitDelta delta)) :=
  (keeps_startBlock kind block).andThen fun _ => rfl

private theorem keeps_toolFragments (toolCalls : List ToolCallResponse) (position : Int) :
    Keeps control (toolFragments position toolCalls) := by
  induction toolCalls generalizing position with
  | nil => exact fun _ => rfl
  | cons toolCall toolCalls ih =>
    have hfirst : Keeps control (toolFragment position toolCall) := fun _ => rfl
    exact hfirst.andThen (ih (position + 1))

private theorem keeps_enterTools : Keeps control enterTools := by
  intro info
  unfold enterTools
  split
  · rfl
  · exact keeps_advance.andThen (fun _ => rfl) info

theorem keeps_laterContent (d : ChoiceDelta) : Keeps control (laterContent d) := by
  unfold laterContent
  split_ifs
  · exact keeps_enterTools.andThen ((keeps_toolFragments d.toolCalls 0).andThen fun _ => rfl)
  · exact keeps_block _ _ _
  · exact keeps_block _ _ _
  · exact fun _ => rfl

theorem keeps_firstToolCalls (toolCalls : List ToolCallResponse) :
    Keeps control (firstToolCalls toolCalls) := by
  intro info
  cases toolCalls <;> rfl

theorem keeps_firstContent (d : ChoiceDelta) : Keeps control (firstContent d) := by
  have hblock : ∀ kind block delta, Keeps control (firstBlock kind block delta) := by
    intro kind block delta
    refine Keeps.andThen ?_ fun _ => rfl
    intro info
    dsimp only
    split
    · rfl
    · exact keeps_advance info
  unfold firstContent
  split_ifs
  · exact hblock _ _ _
  · exact hblock _ _ _
  · exact fun _ => rfl

end NewApi.Claude
