import NewApi.OpenAIStream.Handler

/-!
# Streams for Gemini clients

`StreamResponseOpenAI2Gemini` of `service/convert.go` makes a part with a
function call of every fragment of a tool call, and parses the arguments of that
fragment alone.  Only calls that come in one fragment survive.
-/

namespace NewApi.OpenAIStream

open Foundation List Dto

variable {α : Type}

/-- Objects of a JSON library: `unmarshal` into a map, the empty map, and the map
that holds a text under `arguments`. -/
structure ObjectJson (α : Type) where
  unmarshal : String → Option α
  unmarshal_empty : unmarshal "" = none
  emptyObject : α
  rawArguments : String → α

structure FunctionCall (α : Type) where
  functionName : String
  arguments : α
  deriving DecidableEq

inductive GeminiPart (α : Type) where
  | functionCall (call : FunctionCall α)
  | text (text : String)

structure GeminiChatCandidate (α : Type) where
  index : Int
  finishReason : Option String
  parts : List (GeminiPart α)

structure GeminiUsageMetadata where
  promptTokenCount : Int
  candidatesTokenCount : Int
  totalTokenCount : Int

structure GeminiChatResponse (α : Type) where
  candidates : List (GeminiChatCandidate α)
  usageMetadata : GeminiUsageMetadata

def geminiFinishReason (reason : String) : String :=
  match reason with
  | "stop" => "STOP"
  | "length" => "MAX_TOKENS"
  | "content_filter" => "SAFETY"
  | "tool_calls" => "STOP"
  | _ => "STOP"

section

variable (objects : ObjectJson α)

def parseArguments (arguments : String) : α :=
  if arguments ≠ "" then (objects.unmarshal arguments).getD (objects.rawArguments arguments)
  else objects.emptyObject

def functionCallOf (toolCall : ToolCallResponse) : FunctionCall α where
  functionName := toolCall.name
  arguments := parseArguments objects toolCall.arguments

/-- The text is left out if there is a list of tool calls, even an empty one. -/
def partsOf (delta : ChoiceDelta) : List (GeminiPart α) :=
  match delta.toolCalls with
  | some toolCalls => toolCalls.map fun toolCall => .functionCall (functionCallOf objects toolCall)
  | none => if delta.getContentString ≠ "" then [.text delta.getContentString] else []

def candidateOf (choice : StreamChoice) : GeminiChatCandidate α where
  index := choice.index
  finishReason := choice.finishReason.map geminiFinishReason
  parts := partsOf objects choice.delta

def usageMetadataOf (estimatePromptTokens : Int) : Option Usage → GeminiUsageMetadata
  | none => ⟨estimatePromptTokens, 0, estimatePromptTokens⟩
  | some usage => ⟨usage.promptTokens, usage.completionTokens, usage.totalTokens⟩

def streamResponseOpenAI2Gemini (estimatePromptTokens : Int) (chunk : StreamResponse) :
    Option (GeminiChatResponse α) :=
  let hasContent := chunk.choices.any fun choice => choice.hasContent || choice.hasToolCalls
  let hasFinishReason := chunk.choices.any fun choice => choice.finishReason.isSome
  if hasContent = false ∧ hasFinishReason = false then none
  else
    some
      { candidates := chunk.choices.map (candidateOf objects)
        usageMetadata := usageMetadataOf estimatePromptTokens chunk.usage }

end

section

variable (json : ChunkJson) (objects : ObjectJson α) (estimatePromptTokens : Int)

/-- `handleGeminiFormat`, and what `HandleFinalResponse` does with the last chunk. -/
def handleGeminiFormat (data : String) : List (GeminiChatResponse α) :=
  match json.unmarshal data with
  | none => []
  | some chunk => (streamResponseOpenAI2Gemini objects estimatePromptTokens chunk).toList

def geminiStreamHandler (isAudioModel : Bool) (datas : List String) : List (GeminiChatResponse α) :=
  let handle := handleGeminiFormat json objects estimatePromptTokens
  let run := streamLoop (fun data => Emitter.emit fun _ : Unit => handle data) isAudioModel datas ()
  run.1 ++ handle run.2.lastStreamData

end

def ToolCallResponse.key (toolCall : ToolCallResponse) (position : Nat) : Int :=
  toolCall.index.getD position

def StreamChoice.fragments (choice : StreamChoice) : List (Int × ToolCall) :=
  (choice.delta.toolCalls.getD []).zipIdx.map fun p =>
    (p.1.key p.2, { id := p.1.id, name := p.1.name, arguments := p.1.arguments })

section

variable (json : ChunkJson) (index : Int)

def choicesAt (datas : List String) : List StreamChoice :=
  (datas.filterMap json.unmarshal).flatMap fun chunk =>
    chunk.choices.filter fun choice => choice.index = index

def toolFragmentsAt (datas : List String) : List (Int × ToolCall) :=
  (choicesAt json index datas).flatMap StreamChoice.fragments

def toolCallsAt (datas : List String) : List ToolCall :=
  (gather ToolCall.extend (toolFragmentsAt json index datas)).map Prod.snd

def GeminiPart.call? : GeminiPart α → Option (FunctionCall α)
  | .functionCall call => some call
  | .text _ => none

def functionCallsAt (responses : List (GeminiChatResponse α)) : List (FunctionCall α) :=
  ((responses.flatMap GeminiChatResponse.candidates).filter fun candidate =>
    candidate.index = index).flatMap fun candidate => candidate.parts.filterMap GeminiPart.call?

end

section

variable {json : ChunkJson} {objects : ObjectJson α} {estimatePromptTokens : Int} {index : Int}

private theorem geminiStreamHandler_eq {datas : List String} (h : ∀ d ∈ datas, d ≠ "")
    (isAudioModel : Bool) :
    geminiStreamHandler json objects estimatePromptTokens isAudioModel datas =
      datas.flatMap (handleGeminiFormat json objects estimatePromptTokens) := by
  rcases streamLoop_eq (fun data => Emitter.emit fun _ : Unit =>
    handleGeminiFormat json objects estimatePromptTokens data) isAudioModel h () with
    ⟨hout, -, hlast⟩
  dsimp only [geminiStreamHandler]
  rw [hout, hlast, Emitter.forEach_emit]
  rcases eq_nil_or_concat datas with rfl | ⟨init, last, rfl⟩
  · simp [handleGeminiFormat, json.unmarshal_empty]
  · simp

private theorem fragments_calls (choice : StreamChoice) :
    (choice.delta.toolCalls.getD []).map (functionCallOf objects) =
      choice.fragments.map fun f => ⟨f.2.name, parseArguments objects f.2.arguments⟩ := by
  unfold StreamChoice.fragments
  rw [map_map]
  conv_lhs => rw [← zipIdx_map_fst 0 (choice.delta.toolCalls.getD []), map_map]
  rfl

private theorem functionCallsAt_append (first second : List (GeminiChatResponse α)) :
    functionCallsAt index (first ++ second) =
      functionCallsAt index first ++ functionCallsAt index second := by
  simp [functionCallsAt]

private theorem functionCallsAt_handleGeminiFormat (data : String) :
    functionCallsAt index (handleGeminiFormat json objects estimatePromptTokens data) =
      (choicesAt json index [data]).flatMap fun choice =>
        (choice.delta.toolCalls.getD []).map (functionCallOf objects) := by
  unfold handleGeminiFormat choicesAt
  cases hchunk : json.unmarshal data with
  | none => simp [hchunk, functionCallsAt]
  | some chunk =>
    simp only [filterMap_cons, hchunk, filterMap_nil, flatMap_singleton]
    rw [streamResponseOpenAI2Gemini]
    split
    · next h =>
      have hnone : ∀ choice ∈ chunk.choices, choice.delta.toolCalls.getD [] = [] := by
        intro choice hchoice
        have hempty := any_eq_false.mp h.1 choice hchoice
        simp only [Bool.or_eq_true, not_or, StreamChoice.hasToolCalls, ne_eq,
          decide_eq_true_eq, not_not] at hempty
        exact hempty.2
      symm
      apply flatMap_eq_nil_iff.mpr
      intro choice hchoice
      rw [hnone choice (mem_filter.mp hchoice).1]
      rfl
    · unfold functionCallsAt
      rw [Option.toList_some, flatMap_singleton, filter_map, flatMap_map]
      apply flatMap_congr
      intro choice _
      unfold candidateOf partsOf
      cases choice.delta.toolCalls with
      | some => simp [filterMap_map, GeminiPart.call?, Function.comp_def]
      | none =>
        dsimp only
        split <;> rfl

private theorem functionCallsAt_eq (datas : List String) :
    functionCallsAt index (datas.flatMap (handleGeminiFormat json objects estimatePromptTokens)) =
      (toolFragmentsAt json index datas).map fun f =>
        ⟨f.2.name, parseArguments objects f.2.arguments⟩ := by
  induction datas with
  | nil => rfl
  | cons data datas ih =>
    have hchoices : choicesAt json index ([data] ++ datas) =
        choicesAt json index [data] ++ choicesAt json index datas := by
      unfold choicesAt
      rw [filterMap_append, flatMap_append]
    rw [singleton_append] at hchoices
    unfold toolFragmentsAt at ih ⊢
    rw [flatMap_cons, functionCallsAt_append, ih, functionCallsAt_handleGeminiFormat,
      hchoices, flatMap_append, map_append]
    congr 1
    rw [map_flatMap]
    simp [fragments_calls]

def SameCalls (objects : ObjectJson α) (calls : List (FunctionCall α))
    (toolCalls : List ToolCall) : Prop :=
  (calls.map fun call => (call.functionName, some call.arguments)) =
    toolCalls.map fun call => (call.name, objects.unmarshal call.arguments)

private theorem parseArguments_of_some {arguments : String} {object : α}
    (h : objects.unmarshal arguments = some object) :
    parseArguments objects arguments = object := by
  have hne : arguments ≠ "" := by
    rintro rfl
    rw [objects.unmarshal_empty] at h
    cases h
  simp [parseArguments, hne, h]

end

/--
If the arguments of every tool call of a choice are an object, the function calls that a Gemini
client gets are these calls exactly if each call comes in one fragment.
-/
theorem gemini_stream_calls_iff (json : ChunkJson) (objects : ObjectJson α)
    (estimatePromptTokens : Int) (isAudioModel : Bool) (datas : List String) (index : Int)
    (h : ∀ d ∈ datas, d ≠ "")
    (hobjects : ∀ call ∈ toolCallsAt json index datas,
      (objects.unmarshal call.arguments).isSome = true) :
    SameCalls objects
      (functionCallsAt index
        (geminiStreamHandler json objects estimatePromptTokens isAudioModel datas))
      (toolCallsAt json index datas) ↔ (keys (toolFragmentsAt json index datas)).Nodup := by
  rw [geminiStreamHandler_eq h, functionCallsAt_eq, SameCalls, map_map]
  unfold toolCallsAt at hobjects ⊢
  constructor
  · intro hsame
    have hlength := congrArg length hsame
    rw [length_map, length_map, length_map] at hlength
    exact length_gather_eq_iff.mp hlength.symm
  intro hwhole
  rw [gather_of_nodup hwhole] at hobjects ⊢
  rw [map_map]
  apply map_congr_left
  intro f hf
  rcases Option.isSome_iff_exists.mp (hobjects f.2 (mem_map_of_mem hf)) with
    ⟨object, hobject⟩
  simp [hobject, parseArguments_of_some hobject]

def cityObject : ObjectJson String where
  unmarshal s := if s = "\x7b\"city\":\"Paris\"\x7d" then some s else none
  unmarshal_empty := by decide
  emptyObject := "\x7b\x7d"
  rawArguments s := "arguments: " ++ s

def callChunk (name arguments : String) : StreamResponse where
  choices := [{ delta := { toolCalls := some [
    { index := some 0, name := name, arguments := arguments }] } }]

def callJson : ChunkJson :=
  tableJson [("whole", callChunk "get_weather" "\x7b\"city\":\"Paris\"\x7d"),
    ("start", callChunk "get_weather" ""), ("more", callChunk "" "\x7b\"city\":"),
    ("end", callChunk "" "\"Paris\"\x7d")] rfl

theorem gemini_stream_calls_whole :
    toolCallsAt callJson 0 ["whole"] =
        [{ name := "get_weather", arguments := "\x7b\"city\":\"Paris\"\x7d" }] ∧
      SameCalls cityObject
        (functionCallsAt 0 (geminiStreamHandler callJson cityObject 0 false ["whole"]))
        (toolCallsAt callJson 0 ["whole"]) := by
  constructor
  · decide
  · exact (gemini_stream_calls_iff callJson cityObject 0 false ["whole"] 0 (by decide)
      (by decide)).mpr (by decide)

/-- A call in three fragments becomes three function calls, two of them without a name. -/
theorem gemini_stream_calls_counterexample :
    toolCallsAt callJson 0 ["start", "more", "end"] =
        [{ name := "get_weather", arguments := "\x7b\"city\":\"Paris\"\x7d" }] ∧
      functionCallsAt 0 (geminiStreamHandler callJson cityObject 0 false ["start", "more", "end"]) =
        [⟨"get_weather", "\x7b\x7d"⟩, ⟨"", "arguments: \x7b\"city\":"⟩,
          ⟨"", "arguments: \"Paris\"\x7d"⟩] := by
  decide

end NewApi.OpenAIStream
