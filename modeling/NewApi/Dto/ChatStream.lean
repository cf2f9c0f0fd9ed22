import Mathlib.Data.Rat.Defs
import NewApi.Foundation.Fragments

/-!
# Chat completion chunks and their client

`dto.ChatCompletionsStreamResponse`, and what a client assembles from a stream
of such chunks: for each choice index the concatenated texts, and the tool
calls, whose fragments are joined by their index.
-/

namespace NewApi.Dto

open Foundation String

universe u v

/-!
## Token usage

The usage records of `dto`, with the fields that the modelled functions read.
-/

structure InputTokenDetails where
  cachedTokens : Int := 0
  cachedCreationTokens : Int := 0
  textTokens : Int := 0
  audioTokens : Int := 0
  imageTokens : Int := 0
  deriving DecidableEq

structure OutputTokenDetails where
  textTokens : Int := 0
  audioTokens : Int := 0
  imageTokens : Int := 0
  deriving DecidableEq

/-- `cost` is the number under `cost`, 0 if there is none. -/
structure Usage where
  promptTokens : Int := 0
  completionTokens : Int := 0
  totalTokens : Int := 0
  usageSemantic : String := ""
  usageSource : String := ""
  promptTokensDetails : InputTokenDetails := {}
  completionTokenDetails : OutputTokenDetails := {}
  claudeCacheCreation5mTokens : Int := 0
  claudeCacheCreation1hTokens : Int := 0
  cost : ℚ := 0
  deriving DecidableEq

def normalizeCacheCreationSplit (totalTokens tokens5m tokens1h : Int) : Int × Int :=
  (tokens5m + max (totalTokens - tokens5m - tokens1h) 0, tokens1h)

structure ClaudeCacheCreationUsage where
  ephemeral5mInputTokens : Int := 0
  ephemeral1hInputTokens : Int := 0

structure ClaudeUsage where
  inputTokens : Int := 0
  cacheCreationInputTokens : Int := 0
  cacheReadInputTokens : Int := 0
  outputTokens : Int := 0
  cacheCreation : Option ClaudeCacheCreationUsage := none

/-- `json.Marshal` and `json.Unmarshal` on the values of a type. -/
structure JsonCodec (α : Type u) where
  marshal : α → String
  unmarshal : String → Option α
  unmarshal_marshal : ∀ value, unmarshal (marshal value) = some value

def rawMessage : JsonCodec String where
  marshal := id
  unmarshal := some
  unmarshal_marshal _ := rfl

structure ToolCall where
  id : String := ""
  name : String := ""
  arguments : String := ""
  deriving DecidableEq

structure StreamDelta where
  content : Option String := none
  reasoningContent : Option String := none
  toolCalls : List (Nat × ToolCall) := []

structure StreamChoice where
  index : Nat := 0
  delta : StreamDelta := {}
  finishReason : Option String := none

structure StreamResponse where
  id : String := ""
  model : String := ""
  choices : List StreamChoice

def ToolCall.extend (call more : ToolCall) : ToolCall where
  id := if call.id = "" then more.id else call.id
  name := if call.name = "" then more.name else call.name
  arguments := call.arguments ++ more.arguments

section

variable (index : Nat) (chunks : List StreamResponse)

def choicesAt : List StreamChoice :=
  chunks.flatMap fun chunk => chunk.choices.filter fun choice => choice.index = index

def contentAt : String :=
  join ((choicesAt index chunks).map fun choice => choice.delta.content.getD "")

def reasoningAt : String :=
  join ((choicesAt index chunks).map fun choice => choice.delta.reasoningContent.getD "")

def fragmentsAt : List (Nat × ToolCall) :=
  (choicesAt index chunks).flatMap fun choice => choice.delta.toolCalls

def callsAt : List ToolCall := (gather ToolCall.extend (fragmentsAt index chunks)).map Prod.snd

def finishReasonAt : Option String :=
  ((choicesAt index chunks).filterMap StreamChoice.finishReason).getLast?

@[simp] theorem choicesAt_append (first second : List StreamResponse) :
    choicesAt index (first ++ second) = choicesAt index first ++ choicesAt index second :=
  List.flatMap_append

@[simp] theorem contentAt_append (first second : List StreamResponse) :
    contentAt index (first ++ second) = contentAt index first ++ contentAt index second := by
  simp [contentAt]

@[simp] theorem reasoningAt_append (first second : List StreamResponse) :
    reasoningAt index (first ++ second) = reasoningAt index first ++ reasoningAt index second := by
  simp [reasoningAt]

@[simp] theorem fragmentsAt_append (first second : List StreamResponse) :
    fragmentsAt index (first ++ second) = fragmentsAt index first ++ fragmentsAt index second := by
  simp [fragmentsAt]

variable {β : Type v} (f : β → List StreamResponse) (parts : List β)

theorem textsAt_flatMap :
    contentAt index (parts.flatMap f) = join (parts.map fun part => contentAt index (f part)) ∧
      reasoningAt index (parts.flatMap f) =
        join (parts.map fun part => reasoningAt index (f part)) := by
  induction parts with
  | nil => exact ⟨rfl, rfl⟩
  | cons part parts ih => simp [ih, join_cons]

theorem fragmentsAt_flatMap :
    fragmentsAt index (parts.flatMap f) = parts.flatMap fun part => fragmentsAt index (f part) := by
  induction parts with
  | nil => rfl
  | cons part parts ih => simp [ih]

end

def chunkOf (delta : StreamDelta) : StreamResponse := { choices := [{ delta := delta }] }

section

variable (deltas : List StreamDelta)

theorem choicesAt_map_chunkOf :
    choicesAt 0 (deltas.map chunkOf) = deltas.map fun delta => { delta := delta } := by
  induction deltas with
  | nil => rfl
  | cons delta deltas ih => simpa [choicesAt, chunkOf] using ih

theorem contentAt_map_chunkOf :
    contentAt 0 (deltas.map chunkOf) = join (deltas.map fun delta => delta.content.getD "") := by
  simp [contentAt, choicesAt_map_chunkOf, Function.comp_def]

theorem reasoningAt_map_chunkOf :
    reasoningAt 0 (deltas.map chunkOf) =
      join (deltas.map fun delta => delta.reasoningContent.getD "") := by
  simp [reasoningAt, choicesAt_map_chunkOf, Function.comp_def]

theorem fragmentsAt_map_chunkOf :
    fragmentsAt 0 (deltas.map chunkOf) = deltas.flatMap StreamDelta.toolCalls := by
  simp [fragmentsAt, choicesAt_map_chunkOf, List.flatMap_map]

end

theorem foldl_extend_arguments (call : ToolCall) (pieces : List String) :
    (pieces.map fun piece => ({ arguments := piece } : ToolCall)).foldl ToolCall.extend call =
      { call with arguments := call.arguments ++ join pieces } := by
  induction pieces generalizing call with
  | nil => simp
  | cons piece pieces ih =>
    have hone : call.extend { arguments := piece } =
        { call with arguments := call.arguments ++ piece } := by
      cases call
      simp +contextual [ToolCall.extend]
    rw [List.map_cons, List.foldl_cons, hone, ih]
    simp [join_cons, append_assoc]

end NewApi.Dto
