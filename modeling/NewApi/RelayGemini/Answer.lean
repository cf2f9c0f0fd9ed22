import NewApi.Dto.ChatStream
import NewApi.Foundation.Emit
import NewApi.Foundation.GoString
import Mathlib.Data.List.Flatten

/-!
# Gemini answers for OpenAI clients

`responseGeminiChat2OpenAI` for one response, `streamResponseGeminiChat2OpenAI`
and `GeminiChatStreamHandler` for a stream, in
`relay/channel/gemini/relay-gemini.go`.
-/

namespace NewApi.RelayGemini

open Foundation List Dto ToolCall Emitter Spells

universe u

/-- A part of an answer.  A function call has the id that is drawn for it. -/
inductive AnswerPart (α : Type u) where
  | text (text : String)
  | thought (text : String)
  | inlineData (mimeType data : String)
  | functionCall (uuid functionName : String) (arguments : α)
  | executableCode (language code : String)
  | codeExecutionResult (output : String)

structure Candidate (α : Type u) where
  index : Nat
  parts : List (AnswerPart α)
  finishReason : Option String := none

open Candidate

structure GeminiChatResponse (α : Type u) where
  candidates : List (Candidate α)

open GeminiChatResponse

structure Builder where
  content : String := ""
  appended : Nat := 0

def Builder.write (b : Builder) (s : String) : Builder where
  content := b.content ++ (if b.appended > 0 then "\n" else "") ++ s
  appended := b.appended + 1

def mediaLink (label mimeType data : String) : String :=
  label ++ "(data:" ++ mimeType ++ ";base64," ++ data ++ ")"

def finishReasonOpenAI (reason : String) : String :=
  if reason = "STOP" then "stop" else if reason = "MAX_TOKENS" then "length" else "content_filter"

structure OpenAITextResponseChoice where
  index : Nat
  content : String
  reasoningContent : Option String
  toolCalls : List ToolCall
  finishReason : String

structure Collected where
  content : Builder := {}
  reasoningContent : Option String := none
  toolCalls : List ToolCall := []
  finishReason : String := "stop"

open Collected

section

variable {α : Type u} (json : JsonCodec α)

def getResponseToolCall (uuid functionName : String) (arguments : α) : ToolCall where
  id := "call_" ++ uuid
  name := functionName
  arguments := json.marshal arguments

def Collected.write (c : Collected) (s : String) : Collected :=
  { c with content := c.content.write s }

def Collected.visit (c : Collected) : AnswerPart α → Collected
  | .inlineData mimeType data =>
    if hasPrefix mimeType "image" then c.write (mediaLink "![image]" mimeType data)
    else c.write (mediaLink "[media]" mimeType data)
  | .functionCall uuid functionName arguments =>
    { c with
      finishReason := "tool_calls"
      toolCalls := c.toolCalls ++ [getResponseToolCall json uuid functionName arguments] }
  | .thought s => { c with reasoningContent := some s }
  | .executableCode language code => c.write ("```" ++ language ++ "\n" ++ code ++ "\n```")
  | .codeExecutionResult output => c.write ("```output\n" ++ output ++ "\n```")
  | .text s => if s ≠ "\n" then c.write s else c

structure Answered where
  isToolCall : Bool := false
  choices : List OpenAITextResponseChoice := []

def Answered.visit (a : Answered) (candidate : Candidate α) : Answered :=
  let c := candidate.parts.foldl (Collected.visit json) {}
  let isToolCall := a.isToolCall || decide (c.toolCalls ≠ [])
  let finishReason :=
    match candidate.finishReason with
    | some reason => finishReasonOpenAI reason
    | none => c.finishReason
  { isToolCall := isToolCall
    choices := a.choices ++
      [{ index := candidate.index
         content := c.content.content
         reasoningContent := c.reasoningContent
         toolCalls := c.toolCalls
         finishReason := if isToolCall then "tool_calls" else finishReason }] }

def responseGeminiChat2OpenAI (response : GeminiChatResponse α) : List OpenAITextResponseChoice :=
  (response.candidates.foldl (Answered.visit json) {}).choices

structure StreamCollected where
  content : Builder := {}
  isTools : Bool := false
  isThought : Bool := false
  toolCalls : List (Nat × ToolCall) := []

open StreamCollected

def StreamCollected.write (c : StreamCollected) (s : String) : StreamCollected :=
  { c with content := c.content.write s }

def StreamCollected.visit (c : StreamCollected) : AnswerPart α → StreamCollected
  | .inlineData mimeType data =>
    if hasPrefix mimeType "image" then c.write (mediaLink "![image]" mimeType data) else c
  | .functionCall uuid functionName arguments =>
    { c with
      isTools := true
      toolCalls := c.toolCalls ++
        [(c.toolCalls.length, getResponseToolCall json uuid functionName arguments)] }
  | .thought s => { c.write s with isThought := true }
  | .executableCode language code => c.write ("```" ++ language ++ "\n" ++ code ++ "\n```\n")
  | .codeExecutionResult output => c.write ("```output\n" ++ output ++ "\n```\n")
  | .text s => if s ≠ "\n" then c.write s else c

def streamChoice (candidate : Candidate α) : StreamChoice :=
  let c := candidate.parts.foldl (StreamCollected.visit json) {}
  { index := candidate.index
    delta :=
      { content := if c.isThought then none else some c.content.content
        reasoningContent := if c.isThought then some c.content.content else none
        toolCalls := c.toolCalls }
    finishReason :=
      if c.isTools then some "tool_calls"
      else
        match candidate.finishReason with
        | some reason => if reason = "STOP" then none else some (finishReasonOpenAI reason)
        | none => none }

def streamResponseGeminiChat2OpenAI (response : GeminiChatResponse α) : List StreamChoice × Bool :=
  (response.candidates.map (streamChoice json),
    response.candidates.any fun candidate => candidate.finishReason = some "STOP")

end

structure StreamState where
  finishReason : String := "stop"
  toolCallIndexByChoice : Nat → List (String × Nat) := fun _ => []
  nextToolCallIndexByChoice : Nat → Nat := fun _ => 0
  sendResponseCount : Nat := 0

open StreamState

section

variable (choices : List StreamChoice)

def isToolCall : Bool :=
  match choices with
  | [] => false
  | first :: _ => decide (first.delta.toolCalls ≠ [])

def StreamState.setIndex (s : StreamState) (choiceKey : Nat) (tool : Nat × ToolCall) :
    (Nat × ToolCall) × StreamState :=
  if tool.2.id = "" then (tool, s)
  else
    match (s.toolCallIndexByChoice choiceKey).lookup tool.2.id with
    | some idx => ((idx, tool.2), s)
    | none =>
      let idx := s.nextToolCallIndexByChoice choiceKey
      ((idx, tool.2),
        { s with
          toolCallIndexByChoice := Function.update s.toolCallIndexByChoice choiceKey
            ((tool.2.id, idx) :: s.toolCallIndexByChoice choiceKey)
          nextToolCallIndexByChoice :=
            Function.update s.nextToolCallIndexByChoice choiceKey (idx + 1) })

def StreamState.setIndices (s : StreamState) (choiceKey : Nat) :
    List (Nat × ToolCall) → List (Nat × ToolCall) × StreamState
  | [] => ([], s)
  | tool :: tools =>
    let (tool, s) := s.setIndex choiceKey tool
    let (tools, s) := s.setIndices choiceKey tools
    (tool :: tools, s)

def StreamState.indexChoices (s : StreamState) : List StreamChoice → List StreamChoice × StreamState
  | [] => ([], s)
  | choice :: choices =>
    let (toolCalls, s) := s.setIndices choice.index choice.delta.toolCalls
    let (choices, s) := s.indexChoices choices
    ({ choice with delta := { choice.delta with toolCalls := toolCalls } } :: choices, s)

def mapCalls (f : ToolCall → ToolCall) (choice : StreamChoice) : StreamChoice :=
  { choice with
    delta := { choice.delta with
      toolCalls := choice.delta.toolCalls.map fun tool => (tool.1, f tool.2) } }

def clearCall (call : ToolCall) : ToolCall := { arguments := call.arguments }

def clearToolCalls : List StreamChoice :=
  if isToolCall choices then choices.map (mapCalls clearCall) else choices

def startToolCalls : List (Nat × ToolCall) :=
  match choices with
  | [] => []
  | first :: _ => first.delta.toolCalls.map fun tool => (tool.1, { tool.2 with arguments := "" })

end

def unfinishFirst : List StreamChoice → List StreamChoice
  | [] => []
  | first :: choices => { first with finishReason := none } :: choices

section

variable {α : Type u} (json : JsonCodec α) (id model : String)

def handleStream (choices : List StreamChoice) : Emitter StreamState StreamResponse := fun s =>
  ([{ id := id, model := model, choices := choices }],
    { s with sendResponseCount := s.sendResponseCount + 1 })

def generateStartEmptyResponse (toolCalls : List (Nat × ToolCall)) : List StreamChoice :=
  [{ delta := { content := some "", toolCalls := toolCalls } }]

def sendChoices (choices : List StreamChoice) : Emitter StreamState StreamResponse := fun s =>
  if s.sendResponseCount = 0 then
    if isToolCall choices then
      ((handleStream id model (generateStartEmptyResponse (startToolCalls choices))).andThen
        (handleStream id model (unfinishFirst (clearToolCalls choices)))) s
    else
      ((handleStream id model (generateStartEmptyResponse [])).andThen
        (handleStream id model choices)) s
  else handleStream id model choices s

def sendStop (isStop : Bool) : Emitter StreamState StreamResponse := fun s =>
  if isStop then handleStream id model [{ finishReason := some s.finishReason }] s
  else skip s

def onResponse (response : GeminiChatResponse α) : Emitter StreamState StreamResponse := fun s =>
  let (choices, isStop) := streamResponseGeminiChat2OpenAI json response
  let s := if isToolCall choices then { s with finishReason := "tool_calls" } else s
  let (choices, s) := s.indexChoices choices
  ((sendChoices id model choices).andThen (sendStop id model isStop)) s

def geminiChatStreamHandler (includeUsage : Bool) (responses : List (GeminiChatResponse α)) :
    List StreamResponse :=
  (Emitter.forEach (onResponse json id model) responses {}).1 ++
    (if includeUsage then [{ id := id, model := model, choices := [] }] else [])

end

section

variable {α : Type u} (json : JsonCodec α)

def mediaLabel (mimeType : String) : String :=
  if hasPrefix mimeType "image" then "![image]" else "[media]"

def contentPieces : AnswerPart α → List String
  | .text s => if s = "\n" then [] else [s]
  | .inlineData mimeType data => [mediaLink (mediaLabel mimeType) mimeType data]
  | .executableCode language code => ["```" ++ language ++ "\n" ++ code ++ "\n```"]
  | .codeExecutionResult output => ["```output\n" ++ output ++ "\n```"]
  | .thought _ => []
  | .functionCall _ _ _ => []

def thoughtPieces : AnswerPart α → List String
  | .thought s => [s]
  | _ => []

def partCalls : AnswerPart α → List ToolCall
  | .functionCall uuid functionName arguments =>
    [getResponseToolCall json uuid functionName arguments]
  | _ => []

def ToolCall.nameAndArguments (call : ToolCall) : String × String := (call.name, call.arguments)

/-- The client has the texts and media in the content, the thoughts in the
reasoning and nowhere else, and the function calls. -/
structure Reaches (parts : List (AnswerPart α)) (content reasoning : String)
    (calls : List ToolCall) : Prop where
  content : Spells (shown (parts.flatMap contentPieces)) content
  reasoning : Spells (shown (parts.flatMap thoughtPieces)) reasoning
  calls : calls.map ToolCall.nameAndArguments =
    (parts.flatMap (partCalls json)).map ToolCall.nameAndArguments

def ResponseReaches (response : GeminiChatResponse α) (choices : List OpenAITextResponseChoice) :
    Prop :=
  List.Forall₂
    (fun candidate choice => choice.index = candidate.index ∧
      Reaches json candidate.parts choice.content (choice.reasoningContent.getD "")
        choice.toolCalls)
    response.candidates choices

def candidatesAt (index : Nat) (responses : List (GeminiChatResponse α)) : List (Candidate α) :=
  responses.flatMap fun response => response.candidates.filter fun c => c.index = index

def StreamReaches (responses : List (GeminiChatResponse α)) (chunks : List StreamResponse) : Prop :=
  ∀ index, Reaches json ((candidatesAt index responses).flatMap parts)
    (contentAt index chunks) (reasoningAt index chunks) (callsAt index chunks)

/-! ## One response -/

theorem Builder.write_spells {b : Builder} {pieces more : List String} {s : String}
    (h : Spells pieces b.content) (hs : Spells more s) :
    Spells (pieces ++ more) (b.write s).content := by
  have hsep : Spells [] (if b.appended > 0 then "\n" else "") := by
    split
    · exact newline
    · exact empty
  have hall := (h.append hsep).append hs
  rwa [append_nil] at hall

theorem Collected.visit_content (c : Collected) (part : AnswerPart α) {pieces : List String}
    (h : Spells pieces c.content.content) :
    Spells (pieces ++ shown (contentPieces part)) (c.visit json part).content.content := by
  have hnone : Spells (pieces ++ shown []) c.content.content := by
    rwa [show shown [] = [] from rfl, append_nil]
  have hwrite : ∀ s, Spells (pieces ++ shown [s]) (c.write s).content.content :=
    fun s => c.content.write_spells h (shown_single s)
  cases part with
  | text s =>
    by_cases hs : s = "\n"
    · simpa [contentPieces, visit, hs] using hnone
    · simpa [contentPieces, visit, hs] using hwrite s
  | thought | functionCall => exact hnone
  | inlineData mimeType =>
    by_cases himage : hasPrefix mimeType "image" = true <;>
      simpa [contentPieces, visit, mediaLabel, himage] using hwrite _
  | executableCode | codeExecutionResult => exact hwrite _

section

variable (parts : List (AnswerPart α))

private theorem foldl_visit_toolCalls :
    (parts.foldl (visit json) {}).toolCalls = parts.flatMap (partCalls json) := by
  have hstep : ∀ (c : Collected) (part : AnswerPart α),
      (c.visit json part).toolCalls = c.toolCalls ++ partCalls json part := by
    intro c part
    unfold visit partCalls
    cases part with
    | thought => simp
    | functionCall => rfl
    | executableCode | codeExecutionResult => simp [write]
    | _ => dsimp only; split <;> simp [write]
  simpa using foldl_collect hstep {} parts

private theorem foldl_visit_reasoningContent (c : Collected) :
    (parts.foldl (visit json) c).reasoningContent =
      (parts.flatMap thoughtPieces).getLast?.or c.reasoningContent := by
  induction parts generalizing c with
  | nil => rfl
  | cons part parts ih =>
    rw [foldl_cons, ih, flatMap_cons]
    have hkeep : thoughtPieces part = [] → (c.visit json part).reasoningContent =
        c.reasoningContent → (parts.flatMap thoughtPieces).getLast?.or
          (c.visit json part).reasoningContent =
            (thoughtPieces part ++ parts.flatMap thoughtPieces).getLast?.or c.reasoningContent := by
      intro hnone hsame
      rw [hnone, hsame, nil_append]
    cases part with
    | thought =>
      rw [thoughtPieces, singleton_append, getLast?_cons]
      cases (parts.flatMap thoughtPieces).getLast? <;> rfl
    | functionCall | executableCode | codeExecutionResult => exact hkeep rfl rfl
    | _ =>
      refine hkeep rfl ?_
      unfold visit
      dsimp only
      split <;> rfl

end

/-- The thoughts other than the last one have nothing to show. -/
def OneThought (candidate : Candidate α) : Prop :=
  ∀ s ∈ (candidate.parts.flatMap thoughtPieces).dropLast, Blank s

theorem shown_eq_nil {pieces : List String} (h : ∀ s ∈ pieces, Blank s) : shown pieces = [] := by
  simpa [shown, filter_eq_nil_iff] using h

private theorem spells_last_iff (thoughts : List String) :
    Spells (shown thoughts) (thoughts.getLast?.getD "") ↔ ∀ s ∈ thoughts.dropLast, Blank s := by
  rcases eq_nil_or_concat' thoughts with rfl | ⟨init, last, rfl⟩
  · exact iff_of_true empty (by simp)
  rw [getLast?_concat, Option.getD_some, dropLast_concat, shown_append]
  constructor
  · intro h
    have hink := h.ink_eq
    rw [ink_append, ink_shown, ink_shown, ink_cons, ink_nil] at hink
    exact ink_eq_zero_iff.mp (by omega)
  · intro h
    rw [shown_eq_nil h, nil_append]
    exact shown_single last

structure ChoiceOf (candidate : Candidate α) (choice : OpenAITextResponseChoice) : Prop where
  index : choice.index = candidate.index
  content : choice.content = (candidate.parts.foldl (visit json) {}).content.content
  reasoning : choice.reasoningContent = (candidate.parts.foldl (visit json) {}).reasoningContent
  calls : choice.toolCalls = (candidate.parts.foldl (visit json) {}).toolCalls

variable {json}

private theorem foldl_choices (candidates : List (Candidate α)) (a : Answered) :
    ∃ more, (candidates.foldl (Answered.visit json) a).choices = a.choices ++ more ∧
      List.Forall₂ (ChoiceOf json) candidates more := by
  induction candidates generalizing a with
  | nil => exact ⟨[], (append_nil _).symm, .nil⟩
  | cons candidate candidates ih =>
    obtain ⟨more, hmore, hchoices⟩ := ih (a.visit json candidate)
    rw [foldl_cons, hmore, Answered.visit, append_assoc, singleton_append]
    exact ⟨_, rfl, .cons ⟨rfl, rfl, rfl, rfl⟩ hchoices⟩

variable {candidate : Candidate α}

theorem reaches_iff {choice : OpenAITextResponseChoice} (h : ChoiceOf json candidate choice) :
    (choice.index = candidate.index ∧
      Reaches json candidate.parts choice.content (choice.reasoningContent.getD "")
        choice.toolCalls) ↔ OneThought candidate := by
  have hcontent : Spells (shown (candidate.parts.flatMap contentPieces)) choice.content := by
    have hall := foldl (fun c part _ hc => visit_content json c part hc) candidate.parts
      (s := {}) empty
    rwa [nil_append, ← h.content] at hall
  have hreasoning : choice.reasoningContent.getD "" =
      (candidate.parts.flatMap thoughtPieces).getLast?.getD "" := by
    rw [h.reasoning, foldl_visit_reasoningContent, Option.or_none]
  have hcalls : choice.toolCalls = candidate.parts.flatMap (partCalls json) := by
    rw [h.calls, foldl_visit_toolCalls]
  rw [OneThought, ← spells_last_iff, hreasoning, hcalls]
  constructor
  · rintro ⟨-, hreaches⟩
    exact hreaches.reasoning
  · intro hlast
    exact ⟨h.index, hcontent, hlast, rfl⟩

theorem responseReaches_iff (response : GeminiChatResponse α) :
    ResponseReaches json response (responseGeminiChat2OpenAI json response) ↔
      ∀ candidate ∈ response.candidates, OneThought candidate := by
  obtain ⟨more, hmore, hchoices⟩ := foldl_choices response.candidates {}
  unfold ResponseReaches responseGeminiChat2OpenAI
  rw [hmore, nil_append]
  clear hmore
  generalize response.candidates = candidates at hchoices ⊢
  induction hchoices with
  | nil => simp
  | cons hhead _ ih => rw [forall₂_cons, forall_mem_cons, ih, reaches_iff hhead]

/-! ## The texts of a stream -/

def isOtherMedia : AnswerPart α → Bool
  | .inlineData mimeType _ => !hasPrefix mimeType "image"
  | _ => false

def isThought : AnswerPart α → Bool
  | .thought _ => true
  | _ => false

def streamPieces (part : AnswerPart α) : List String :=
  thoughtPieces part ++ if isOtherMedia part then [] else contentPieces part

private theorem fence_line (s : String) : s ++ "\n```" ++ "\n" = s ++ "\n```\n" := by
  rw [String.append_assoc]
  rfl

variable (json) {pieces : List String} {part : AnswerPart α}

theorem StreamCollected.visit_content (c : StreamCollected) (part : AnswerPart α)
    (h : Spells pieces c.content.content) :
    Spells (pieces ++ shown (streamPieces part)) (c.visit json part).content.content := by
  have hnone : Spells (pieces ++ shown []) c.content.content := by
    rwa [show shown [] = [] from rfl, append_nil]
  have hwrite : ∀ s, Spells (pieces ++ shown [s]) (c.write s).content.content :=
    fun s => c.content.write_spells h (shown_single s)
  have hfence : ∀ s, Spells (pieces ++ shown [s ++ "\n```"])
      (c.write (s ++ "\n```\n")).content.content := by
    intro s
    have hs := (shown_single (s ++ "\n```")).append Spells.newline
    rw [append_nil, fence_line] at hs
    exact c.content.write_spells h hs
  cases part with
  | text s =>
    by_cases hs : s = "\n"
    · simpa [streamPieces, thoughtPieces, isOtherMedia, contentPieces, visit, hs]
        using hnone
    · simpa [streamPieces, thoughtPieces, isOtherMedia, contentPieces, visit, hs]
        using hwrite s
  | thought s => exact hwrite s
  | inlineData mimeType =>
    by_cases himage : hasPrefix mimeType "image" = true
    · simpa [streamPieces, thoughtPieces, isOtherMedia, contentPieces, visit,
        mediaLabel, himage] using hwrite _
    · simpa [streamPieces, thoughtPieces, isOtherMedia, visit, himage] using hnone
  | functionCall => exact hnone
  | executableCode | codeExecutionResult => exact hfence _

private theorem foldl_visit_isThought (parts : List (AnswerPart α)) (c : StreamCollected) :
    (parts.foldl (StreamCollected.visit json) c).isThought =
      (c.isThought || parts.any isThought) := by
  induction parts generalizing c with
  | nil => simp
  | cons part parts ih =>
    have hpart : (c.visit json part).isThought = (c.isThought || isThought part) := by
      unfold StreamCollected.visit isThought
      cases part with
      | thought | functionCall => simp
      | executableCode | codeExecutionResult => simp [StreamCollected.write]
      | _ => dsimp only; split <;> simp [StreamCollected.write]
    rw [foldl_cons, ih, hpart, any_cons, Bool.or_assoc]

/-- A chunk keeps the texts and the thoughts of a candidate apart: there is no
media but images, and a thought has no content beside it. -/
def Apart (candidate : Candidate α) : Prop :=
  (∀ part ∈ candidate.parts, isOtherMedia part = false) ∧
    (candidate.parts.any isThought → ∀ s ∈ candidate.parts.flatMap contentPieces, Blank s)

instance (candidate : Candidate α) : Decidable (Apart candidate) :=
  inferInstanceAs (Decidable ((∀ part ∈ candidate.parts, isOtherMedia part = false) ∧
    (candidate.parts.any isThought → ∀ s ∈ candidate.parts.flatMap contentPieces, Blank s)))

theorem exists_piece_of_isOtherMedia (h : isOtherMedia part = true) :
    ∃ s ∈ contentPieces part, ¬ Blank s := by
  cases part with
  | inlineData =>
    refine ⟨_, mem_cons_self, fun h => ?_⟩
    exact absurd (h '(' (by simp [mediaLink])) (by decide)
  | _ => cases h

theorem thoughtPieces_of_not_isThought (h : isThought part = false) : thoughtPieces part = [] := by
  cases part <;> first | rfl | cases h

section

variable {parts : List (AnswerPart α)}

private theorem flatMap_thoughtPieces (h : parts.any isThought = false) :
    parts.flatMap thoughtPieces = [] := by
  rw [flatMap_eq_nil_iff]
  intro part hpart
  exact thoughtPieces_of_not_isThought (Bool.eq_false_iff.mpr (any_eq_false.mp h part hpart))

private theorem ink_streamPieces (h : parts.any isThought = false) :
    ink (parts.flatMap streamPieces) ≤ ink (parts.flatMap contentPieces) ∧
      (ink (parts.flatMap streamPieces) = ink (parts.flatMap contentPieces) →
        ∀ part ∈ parts, isOtherMedia part = false) := by
  induction parts with
  | nil => simp
  | cons part parts ih =>
    obtain ⟨hpart, hparts⟩ : isThought part = false ∧ parts.any isThought = false := by
      simpa using h
    obtain ⟨hle, heq⟩ := ih hparts
    simp only [flatMap_cons, ink_append, streamPieces,
      thoughtPieces_of_not_isThought hpart, nil_append]
    cases hmedia : isOtherMedia part with
    | false =>
      simp only [Bool.false_eq_true, if_false]
      refine ⟨by omega, fun hsum p hp => ?_⟩
      rcases mem_cons.mp hp with rfl | hp
      · exact hmedia
      · exact heq (by omega) p hp
    | true =>
      obtain ⟨s, hs, hblank⟩ := exists_piece_of_isOtherMedia hmedia
      have hink : ink (contentPieces part) ≠ 0 := fun hzero =>
        hblank (ink_eq_zero_iff.mp hzero s hs)
      simp only [if_true, ink_nil]
      exact ⟨by omega, fun hsum => by omega⟩

private theorem flatMap_streamPieces_of_no_thought (h : parts.any isThought = false)
    (hmedia : ∀ part ∈ parts, isOtherMedia part = false) :
    parts.flatMap streamPieces = parts.flatMap contentPieces := by
  refine flatMap_congr fun part hpart => ?_
  have hthought := Bool.eq_false_iff.mpr (any_eq_false.mp h part hpart)
  rw [streamPieces, thoughtPieces_of_not_isThought hthought, hmedia part hpart]
  rfl

private theorem shown_streamPieces_of_blank (h : ∀ s ∈ parts.flatMap contentPieces, Blank s) :
    shown (parts.flatMap streamPieces) = shown (parts.flatMap thoughtPieces) := by
  induction parts with
  | nil => rfl
  | cons part parts ih =>
    rw [flatMap_cons] at h
    have hpart : shown (if isOtherMedia part then [] else contentPieces part) = [] := by
      split
      · rfl
      · exact shown_eq_nil fun s hs => h s (mem_append_left _ hs)
    rw [flatMap_cons, flatMap_cons, shown_append, shown_append, streamPieces,
      shown_append, hpart, append_nil, ih fun s hs => h s (mem_append_right _ hs)]

end

def streamedContent (candidate : Candidate α) : String :=
  (streamChoice json candidate).delta.content.getD ""

def streamedReasoning (candidate : Candidate α) : String :=
  (streamChoice json candidate).delta.reasoningContent.getD ""

theorem streamed_cases (candidate : Candidate α) :
    (candidate.parts.any isThought = false ∧ streamedReasoning json candidate = "" ∧
        Spells (shown (candidate.parts.flatMap streamPieces)) (streamedContent json candidate)) ∨
      (candidate.parts.any isThought = true ∧ streamedContent json candidate = "" ∧
        Spells (shown (candidate.parts.flatMap streamPieces))
          (streamedReasoning json candidate)) := by
  have hspells := Spells.foldl (fun c part _ => StreamCollected.visit_content json c part)
    candidate.parts (s := {}) Spells.empty
  rw [nil_append] at hspells
  have hthought := foldl_visit_isThought json candidate.parts {}
  rw [Bool.false_or] at hthought
  unfold streamedContent streamedReasoning streamChoice
  simp only [hthought]
  cases candidate.parts.any isThought with
  | false => exact .inl ⟨rfl, rfl, hspells⟩
  | true => exact .inr ⟨rfl, rfl, hspells⟩

theorem streamedContent_ink (candidate : Candidate α) :
    (inkOf (streamedContent json candidate)).length ≤ ink (candidate.parts.flatMap contentPieces) ∧
      ((inkOf (streamedContent json candidate)).length =
        ink (candidate.parts.flatMap contentPieces) → Apart candidate) := by
  rcases streamed_cases json candidate with ⟨hany, -, hcontent⟩ | ⟨-, hcontent, -⟩
  · obtain ⟨hle, heq⟩ := ink_streamPieces hany
    rw [hcontent.ink_eq, ink_shown]
    refine ⟨hle, fun hsum => ⟨heq hsum, fun h => ?_⟩⟩
    rw [hany] at h
    cases h
  · rw [hcontent]
    refine ⟨Nat.zero_le _, fun hzero => ?_⟩
    have hblank := ink_eq_zero_iff.mp hzero.symm
    refine ⟨fun part hpart => ?_, fun _ => hblank⟩
    by_contra hmedia
    obtain ⟨s, hs, hink⟩ := exists_piece_of_isOtherMedia (Bool.eq_true_of_not_eq_false hmedia)
    exact hink (hblank s (mem_flatMap.mpr ⟨part, hpart, hs⟩))

variable {json}

private theorem spells_of_apart (h : Apart candidate) :
    Spells (shown (candidate.parts.flatMap contentPieces)) (streamedContent json candidate) ∧
      Spells (shown (candidate.parts.flatMap thoughtPieces))
        (streamedReasoning json candidate) := by
  rcases streamed_cases json candidate with ⟨hany, hreasoning, hcontent⟩ |
    ⟨hany, hcontent, hreasoning⟩
  · rw [flatMap_streamPieces_of_no_thought hany h.1] at hcontent
    rw [hreasoning, flatMap_thoughtPieces hany]
    exact ⟨hcontent, Spells.empty⟩
  · have hblank := h.2 hany
    rw [shown_streamPieces_of_blank hblank] at hreasoning
    rw [hcontent, shown_eq_nil hblank]
    exact ⟨Spells.empty, hreasoning⟩

private theorem streamed_iff (candidates : List (Candidate α)) :
    (Spells (shown ((candidates.flatMap parts).flatMap contentPieces))
        (String.join (candidates.map (streamedContent json))) ∧
      Spells (shown ((candidates.flatMap parts).flatMap thoughtPieces))
        (String.join (candidates.map (streamedReasoning json)))) ↔
      ∀ candidate ∈ candidates, Apart candidate := by
  constructor
  · rintro ⟨hcontent, -⟩
    have hink := hcontent.ink_eq
    rw [ink_shown] at hink
    clear hcontent
    have hle : ∀ candidates : List (Candidate α),
        (inkOf (String.join (candidates.map (streamedContent json)))).length ≤
          ink ((candidates.flatMap parts).flatMap contentPieces) := by
      intro candidates
      induction candidates with
      | nil => exact Nat.le_refl 0
      | cons candidate =>
        have := (streamedContent_ink json candidate).1
        simp only [map_cons, String.join_cons, inkOf_append, length_append,
          flatMap_cons, flatMap_append, ink_append]
        omega
    induction candidates with
    | nil => simp
    | cons candidate candidates ih =>
      have hhead := streamedContent_ink json candidate
      have htail := hle candidates
      simp only [map_cons, String.join_cons, inkOf_append, length_append,
        flatMap_cons, flatMap_append, ink_append] at hink
      rw [forall_mem_cons]
      exact ⟨hhead.2 (by omega), ih (by omega)⟩
  · intro h
    induction candidates with
    | nil => exact ⟨empty, empty⟩
    | cons candidate candidates ih =>
      rw [forall_mem_cons] at h
      obtain ⟨hcontent, hreasoning⟩ := spells_of_apart h.1
      obtain ⟨hcontents, hreasonings⟩ := ih h.2
      simp only [map_cons, String.join_cons, flatMap_cons, flatMap_append, shown_append]
      exact ⟨hcontent.append hcontents, hreasoning.append hreasonings⟩

/-! ## The chunks of a response -/

def atIndex (index : Nat) (response : GeminiChatResponse α) : List (Candidate α) :=
  response.candidates.filter fun c => c.index = index

variable (json)

def callsOf (candidates : List (Candidate α)) : List ToolCall :=
  (candidates.flatMap parts).flatMap (partCalls json)

theorem callsOf_cons (candidate : Candidate α) (candidates : List (Candidate α)) :
    callsOf json (candidate :: candidates) =
      callsOf json [candidate] ++ callsOf json candidates := by
  simp [callsOf]

theorem callsOf_append (first second : List (Candidate α)) :
    callsOf json (first ++ second) = callsOf json first ++ callsOf json second := by
  simp [callsOf]

theorem id_ne_empty_of_mem_callsOf {candidates : List (Candidate α)} {call : ToolCall}
    (h : call ∈ callsOf json candidates) : call.id ≠ "" := by
  obtain ⟨part, -, hcall⟩ := mem_flatMap.mp h
  cases part with
  | functionCall =>
    rw [mem_singleton.mp hcall, getResponseToolCall]
    simp [String.append_eq_empty_iff]
  | _ => cases hcall

theorem streamChoice_toolCalls (candidate : Candidate α) :
    (streamChoice json candidate).delta.toolCalls = numbered 0 (callsOf json [candidate]) := by
  have hstep : ∀ (c : StreamCollected) (part : AnswerPart α) (calls : List ToolCall),
      c.toolCalls = numbered 0 calls →
        (c.visit json part).toolCalls = numbered 0 (calls ++ partCalls json part) := by
    intro c part calls hcalls
    unfold StreamCollected.visit partCalls
    cases part with
    | text | inlineData => dsimp only; split <;> simpa [StreamCollected.write] using hcalls
    | functionCall =>
      have hlength : c.toolCalls.length = calls.length := by
        rw [hcalls]
        simp [numbered]
      dsimp only
      rw [numbered_append, hcalls, ← hlength, hcalls, Nat.zero_add]
      rfl
    | _ => simpa [StreamCollected.write] using hcalls
  have hall : ∀ (parts : List (AnswerPart α)) (c : StreamCollected) (calls : List ToolCall),
      c.toolCalls = numbered 0 calls → (parts.foldl (StreamCollected.visit json) c).toolCalls =
        numbered 0 (calls ++ parts.flatMap (partCalls json)) := by
    intro parts
    induction parts with
    | nil =>
      intro c calls hcalls
      rw [flatMap_nil, append_nil]
      exact hcalls
    | cons part parts ih =>
      intro c calls hcalls
      rw [foldl_cons, ih _ _ (hstep c part calls hcalls), flatMap_cons, append_assoc]
  simpa [callsOf, streamChoice] using hall candidate.parts {} [] rfl

/-- The state has given the numbers from zero on to the calls of a choice. -/
structure Tracks (index : Nat) (s : StreamState) (seen : List ToolCall) : Prop where
  next : s.nextToolCallIndexByChoice index = seen.length
  known : ∀ p ∈ s.toolCallIndexByChoice index, p.1 ∈ seen.map ToolCall.id

variable {index : Nat} {s : StreamState} {seen : List ToolCall}

theorem Tracks.setIndex (h : Tracks index s seen) {n : Nat} {call : ToolCall} (hid : call.id ≠ "")
    (hfresh : call.id ∉ seen.map ToolCall.id) :
    (s.setIndex index (n, call)).1 = (seen.length, call) ∧
      Tracks index (s.setIndex index (n, call)).2 (seen ++ [call]) := by
  have hlookup : (s.toolCallIndexByChoice index).lookup call.id = none := by
    rw [lookup_eq_none_iff]
    intro p hp
    have hne : call.id ≠ p.1 := fun heq => hfresh (heq ▸ h.known p hp)
    simpa using hne
  unfold StreamState.setIndex
  simp only [hid, if_false, hlookup, h.next]
  refine ⟨trivial, by simp, fun p hp => ?_⟩
  dsimp only at hp
  rw [Function.update_self] at hp
  rw [map_append, mem_append]
  rcases mem_cons.mp hp with rfl | hp
  · exact .inr mem_cons_self
  · exact .inl (h.known p hp)

theorem Tracks.setIndices (h : Tracks index s seen)
    (n : Nat) {calls : List ToolCall} (hids : ∀ call ∈ calls, call.id ≠ "")
    (hfresh : ((seen ++ calls).map ToolCall.id).Nodup) :
    (s.setIndices index (numbered n calls)).1 = numbered seen.length calls ∧
      Tracks index (s.setIndices index (numbered n calls)).2 (seen ++ calls) := by
  induction calls generalizing s seen n with
  | nil =>
    rw [append_nil]
    exact ⟨rfl, h⟩
  | cons call calls ih =>
    rw [forall_mem_cons] at hids
    have hcall : call.id ∉ seen.map ToolCall.id := by
      rw [map_append, nodup_append] at hfresh
      exact fun hmem => hfresh.2.2 _ hmem _ mem_cons_self rfl
    rw [← singleton_append, ← append_assoc] at hfresh
    obtain ⟨hone, htracks⟩ := h.setIndex (n := n) hids.1 hcall
    obtain ⟨hrest, hall⟩ := ih htracks (n + 1) hids.2 hfresh
    rw [append_assoc, singleton_append] at hall
    rw [numbered_cons, numbered_cons]
    unfold setIndices
    dsimp only
    rw [hone, hrest, length_append]
    exact ⟨rfl, hall⟩

theorem Tracks.setIndices_other (h : Tracks index s seen)
    {key : Nat} (hne : key ≠ index) (tools : List (Nat × ToolCall)) :
    Tracks index (s.setIndices key tools).2 seen := by
  induction tools generalizing s with
  | nil => exact h
  | cons tool tools ih =>
    have hone : Tracks index (s.setIndex key tool).2 seen := by
      unfold StreamState.setIndex
      split
      · exact h
      split
      · exact h
      refine ⟨(Function.update_of_ne hne.symm _ _).trans h.next, fun p hp => h.known p ?_⟩
      dsimp only at hp
      rwa [Function.update_of_ne hne.symm] at hp
    exact ih hone

private theorem setIndices_sendResponseCount (key : Nat) (tools : List (Nat × ToolCall)) :
    (s.setIndices key tools).2.sendResponseCount = s.sendResponseCount := by
  induction tools generalizing s with
  | nil => rfl
  | cons tool tools ih =>
    have hone : (s.setIndex key tool).2.sendResponseCount = s.sendResponseCount := by
      unfold setIndex
      split
      · rfl
      · split <;> rfl
    exact ih.trans hone

theorem indexChoices_sendResponseCount (choices : List StreamChoice) :
    (s.indexChoices choices).2.sendResponseCount = s.sendResponseCount := by
  induction choices generalizing s with
  | nil => rfl
  | cons choice choices ih =>
    refine ih.trans ?_
    exact setIndices_sendResponseCount _ _

def toolCallsAt (index : Nat) (choices : List StreamChoice) : List (Nat × ToolCall) :=
  (choices.filter fun choice => choice.index = index).flatMap fun choice => choice.delta.toolCalls

theorem Tracks.indexChoices (h : Tracks index s seen) {candidates : List (Candidate α)}
    (hfresh : ((seen ++ callsOf json (candidates.filter fun c => c.index = index)).map
      ToolCall.id).Nodup) :
    toolCallsAt index (s.indexChoices (candidates.map (streamChoice json))).1 =
        numbered seen.length (callsOf json (candidates.filter fun c => c.index = index)) ∧
      Tracks index (s.indexChoices (candidates.map (streamChoice json))).2
        (seen ++ callsOf json (candidates.filter fun c => c.index = index)) := by
  induction candidates generalizing s seen with
  | nil =>
    rw [filter_nil, show callsOf json [] = [] from rfl, append_nil]
    exact ⟨rfl, h⟩
  | cons candidate candidates ih =>
    have hindex : (streamChoice json candidate).index = candidate.index := rfl
    rw [map_cons]
    unfold indexChoices
    dsimp only
    rw [streamChoice_toolCalls, hindex]
    by_cases hat : candidate.index = index
    · rw [filter_cons_of_pos (by simpa using hat),
        callsOf_cons json candidate (candidates.filter _)] at hfresh ⊢
      rw [hat]
      have hhead : ((seen ++ callsOf json [candidate]).map ToolCall.id).Nodup := by
        rw [← append_assoc, map_append] at hfresh
        exact (nodup_append.mp hfresh).1
      obtain ⟨hone, htracks⟩ := h.setIndices 0
        (fun call hcall => id_ne_empty_of_mem_callsOf json hcall) hhead
      rw [← append_assoc] at hfresh
      obtain ⟨hrest, hall⟩ := ih htracks hfresh
      rw [append_assoc] at hall
      refine ⟨?_, hall⟩
      rw [numbered_append, ← length_append, ← hrest, hone]
      simp [toolCallsAt]
    · rw [filter_cons_of_neg (by simpa using hat)] at hfresh ⊢
      obtain ⟨hrest, hall⟩ := ih (h.setIndices_other hat _) hfresh
      refine ⟨?_, hall⟩
      rw [← hrest]
      simp [toolCallsAt, hat]

def unargued (call : ToolCall) : ToolCall := { call with arguments := "" }

def firstCalls (response : GeminiChatResponse α) : List ToolCall :=
  callsOf json (response.candidates.take 1)

private theorem startToolCalls_indexChoices {response : GeminiChatResponse α}
    (hs : ∀ index, Tracks index s [])
    (hfresh : ((firstCalls json response).map ToolCall.id).Nodup) :
    startToolCalls (s.indexChoices (response.candidates.map (streamChoice json))).1 =
        numbered 0 ((firstCalls json response).map unargued) ∧
      isToolCall (s.indexChoices (response.candidates.map (streamChoice json))).1 =
        decide (firstCalls json response ≠ []) := by
  unfold firstCalls at hfresh ⊢
  cases hcandidates : response.candidates with
  | nil => exact ⟨rfl, rfl⟩
  | cons first =>
    rw [hcandidates] at hfresh
    have hindex : (streamChoice json first).index = first.index := rfl
    obtain ⟨hone, -⟩ := (hs first.index).setIndices 0
      (fun call hcall => id_ne_empty_of_mem_callsOf json hcall) hfresh
    rw [map_cons]
    unfold indexChoices startToolCalls isToolCall
    dsimp only
    rw [streamChoice_toolCalls, hindex]
    rw [take_succ_cons, take_zero] at hone ⊢
    rw [hone, numbered_map]
    refine ⟨rfl, ?_⟩
    cases callsOf json [first] with
    | nil | cons => rfl

def plain (choice : StreamChoice) : StreamChoice :=
  { index := choice.index, delta := { choice.delta with toolCalls := [] } }

section

variable (choices : List StreamChoice)

private theorem indexChoices_plain : (s.indexChoices choices).1.map plain = choices.map plain := by
  induction choices generalizing s with
  | nil => rfl
  | cons choice choices ih => exact congrArg (plain choice :: ·) ih

private theorem clearToolCalls_plain : (clearToolCalls choices).map plain = choices.map plain := by
  unfold clearToolCalls
  split
  · rw [map_map]
    rfl
  · rfl

private theorem unfinishFirst_plain : (unfinishFirst choices).map plain = choices.map plain := by
  cases choices <;> rfl

private theorem toolCallsAt_unfinishFirst :
    toolCallsAt index (unfinishFirst choices) = toolCallsAt index choices := by
  cases choices with
  | nil => rfl
  | cons =>
    unfold toolCallsAt unfinishFirst
    rw [filter_cons, filter_cons]
    split <;> rfl

end

theorem toolCallsAt_clearToolCalls {choices : List StreamChoice} (h : isToolCall choices = true) :
    toolCallsAt index (clearToolCalls choices) =
      (toolCallsAt index choices).map fun e => (e.1, clearCall e.2) := by
  unfold clearToolCalls toolCallsAt
  rw [if_pos h, filter_map, flatMap_map, map_flatMap]
  rfl

variable (id model : String)

section

variable (choices : List StreamChoice)

theorem chunk_texts : contentAt index [{ id := id, model := model, choices := choices }] =
        contentAt index [{ choices := choices.map plain }] ∧
      reasoningAt index [{ id := id, model := model, choices := choices }] =
        reasoningAt index [{ choices := choices.map plain }] := by
  simp only [contentAt, reasoningAt, choicesAt, flatMap_singleton, filter_map, map_map]
  exact ⟨rfl, rfl⟩

private theorem sendChoices_texts :
    contentAt index (sendChoices id model choices s).1 =
        contentAt index [{ choices := choices.map plain }] ∧
      reasoningAt index (sendChoices id model choices s).1 =
        reasoningAt index [{ choices := choices.map plain }] := by
  have hstart : ∀ toolCalls, contentAt index
      [{ id := id, model := model, choices := generateStartEmptyResponse toolCalls }] = "" ∧
      reasoningAt index
        [{ id := id, model := model, choices := generateStartEmptyResponse toolCalls }] = "" := by
    intro toolCalls
    by_cases hzero : 0 = index <;>
      simp [contentAt, reasoningAt, choicesAt, generateStartEmptyResponse, hzero, String.join]
  unfold sendChoices
  split
  · split <;> simp only [andThen, handleStream, contentAt_append, reasoningAt_append, hstart,
      String.empty_append, chunk_texts id model (unfinishFirst _), chunk_texts id model choices,
      unfinishFirst_plain, clearToolCalls_plain, and_self]
  · exact chunk_texts id model choices

end

theorem sendStop_adds (isStop : Bool) :
    contentAt index (sendStop id model isStop s).1 = "" ∧
      reasoningAt index (sendStop id model isStop s).1 = "" ∧
      fragmentsAt index (sendStop id model isStop s).1 = [] := by
  unfold sendStop
  split
  · by_cases hzero : 0 = index <;>
      simp [contentAt, reasoningAt, fragmentsAt, choicesAt, handleStream, hzero, String.join]
  · exact ⟨rfl, rfl, rfl⟩

private theorem onResponse_texts (response : GeminiChatResponse α) :
    contentAt index (onResponse json id model response s).1 =
        String.join ((atIndex index response).map (streamedContent json)) ∧
      reasoningAt index (onResponse json id model response s).1 =
        String.join ((atIndex index response).map (streamedReasoning json)) := by
  unfold onResponse
  simp only [Emitter.andThen, contentAt_append, reasoningAt_append, sendStop_adds,
    sendChoices_texts, indexChoices_plain, streamResponseGeminiChat2OpenAI, String.append_empty]
  rw [← (chunk_texts "" "" _).1, ← (chunk_texts "" "" _).2]
  simp only [contentAt, reasoningAt, choicesAt, atIndex, flatMap_cons, flatMap_nil,
    append_nil, filter_map, map_map, Function.comp_def]
  exact ⟨rfl, rfl⟩

theorem fragmentsAt_chunk (choices : List StreamChoice) :
    fragmentsAt index [{ id := id, model := model, choices := choices }] =
      toolCallsAt index choices := by
  simp only [fragmentsAt, choicesAt, flatMap_singleton]
  rfl

/-- The calls that `sendChoices` sends: the first time, those of the first
choice are named at choice zero and all of them lose their names. -/
theorem sendChoices_fragments (choices : List StreamChoice) :
    fragmentsAt index (sendChoices id model choices s).1 =
      if s.sendResponseCount = 0 ∧ isToolCall choices = true then
        (if index = 0 then startToolCalls choices else []) ++
          (toolCallsAt index choices).map fun e => (e.1, clearCall e.2)
      else toolCallsAt index choices := by
  have hstart : ∀ toolCalls, fragmentsAt index
      [{ id := id, model := model, choices := generateStartEmptyResponse toolCalls }] =
        if index = 0 then toolCalls else [] := by
    intro toolCalls
    rw [fragmentsAt_chunk, toolCallsAt, generateStartEmptyResponse]
    by_cases hzero : index = 0
    · simp [hzero]
    · simp [hzero, Ne.symm hzero]
  unfold sendChoices
  by_cases hcount : s.sendResponseCount = 0
  · by_cases htool : isToolCall choices = true
    · rw [if_pos hcount, if_pos htool, if_pos ⟨hcount, htool⟩]
      simp only [andThen, handleStream, fragmentsAt_append, hstart,
        fragmentsAt_chunk id model (unfinishFirst _), toolCallsAt_unfinishFirst,
        toolCallsAt_clearToolCalls htool]
    · rw [if_pos hcount, if_neg htool, if_neg fun h => htool h.2]
      simp only [andThen, handleStream, fragmentsAt_append, hstart,
        fragmentsAt_chunk id model choices, ite_self, nil_append]
  · rw [if_neg hcount, if_neg fun h => hcount h.1]
    exact fragmentsAt_chunk id model choices

theorem Tracks.send (h : Tracks index s seen) (choices : List StreamChoice) (isStop : Bool) :
    Tracks index ((sendChoices id model choices).andThen (sendStop id model isStop) s).2 seen ∧
      ((sendChoices id model choices).andThen (sendStop id model isStop)
        s).2.sendResponseCount ≠ 0 := by
  have hsend : Tracks index (sendChoices id model choices s).2 seen ∧
      (sendChoices id model choices s).2.sendResponseCount ≠ 0 := by
    unfold sendChoices
    split_ifs <;> exact ⟨⟨h.next, h.known⟩, Nat.succ_ne_zero _⟩
  unfold andThen sendStop
  dsimp only
  split
  · exact ⟨⟨hsend.1.next, hsend.1.known⟩, Nat.succ_ne_zero _⟩
  · exact hsend

theorem onResponse_eq (response : GeminiChatResponse α) (s : StreamState) :
    ∃ s' isStop, (∀ {index seen}, Tracks index s seen → Tracks index s' seen) ∧
      s'.sendResponseCount = s.sendResponseCount ∧
      onResponse json id model response s =
        ((sendChoices id model
          (s'.indexChoices (response.candidates.map (streamChoice json))).1).andThen
            (sendStop id model isStop))
          (s'.indexChoices (response.candidates.map (streamChoice json))).2 := by
  refine ⟨if isToolCall (response.candidates.map (streamChoice json)) then
    { s with finishReason := "tool_calls" } else s, _, ?_, ?_, rfl⟩
  · intro index seen h
    split
    · exact ⟨h.next, h.known⟩
    · exact h
  · split <;> rfl

variable {response : GeminiChatResponse α}

theorem Tracks.onResponse (h : Tracks index s seen)
    (hfresh : ((seen ++ callsOf json (atIndex index response)).map ToolCall.id).Nodup) :
    Tracks index (onResponse json id model response s).2
        (seen ++ callsOf json (atIndex index response)) ∧
      (onResponse json id model response s).2.sendResponseCount ≠ 0 := by
  obtain ⟨s', isStop, htracks, -, heq⟩ := onResponse_eq json id model response s
  rw [heq]
  exact ((htracks h).indexChoices json hfresh).2.send id model _ isStop

private theorem fragmentsAt_onResponse (h : Tracks index s seen)
    (hfresh : ((seen ++ callsOf json (atIndex index response)).map ToolCall.id).Nodup)
    (hcount : s.sendResponseCount ≠ 0) :
    fragmentsAt index (onResponse json id model response s).1 =
      numbered seen.length (callsOf json (atIndex index response)) := by
  obtain ⟨s', isStop, htracks, hsame, heq⟩ := onResponse_eq json id model response s
  rw [heq]
  simp only [Emitter.andThen, fragmentsAt_append, sendStop_adds, append_nil,
    sendChoices_fragments, indexChoices_sendResponseCount, hsame]
  rw [if_neg fun hzero => hcount hzero.1]
  exact ((htracks h).indexChoices json hfresh).1

variable {id json model}

theorem candidatesAt_cons (response : GeminiChatResponse α)
    (responses : List (GeminiChatResponse α)) :
    candidatesAt index (response :: responses) =
      atIndex index response ++ candidatesAt index responses := rfl

private theorem fragmentsAt_later (h : Tracks index s seen) (hcount : s.sendResponseCount ≠ 0)
    {responses : List (GeminiChatResponse α)}
    (hfresh : ((seen ++ callsOf json (candidatesAt index responses)).map ToolCall.id).Nodup) :
    fragmentsAt index (Emitter.forEach (onResponse json id model) responses s).1 =
      numbered seen.length (callsOf json (candidatesAt index responses)) := by
  induction responses generalizing s seen with
  | nil => rfl
  | cons response responses ih =>
    rw [candidatesAt_cons, callsOf_append, ← append_assoc] at hfresh
    have hhead : ((seen ++ callsOf json (atIndex index response)).map ToolCall.id).Nodup := by
      rw [map_append] at hfresh
      exact (nodup_append.mp hfresh).1
    obtain ⟨htracks, hsent⟩ := h.onResponse json id model hhead
    unfold forEach andThen
    dsimp only
    rw [fragmentsAt_append, fragmentsAt_onResponse json id model h hhead hcount,
      ih htracks hsent hfresh, candidatesAt_cons, callsOf_append, numbered_append,
      length_append]

theorem contentAt_stream (responses : List (GeminiChatResponse α)) :
    contentAt index (forEach (onResponse json id model) responses s).1 =
        String.join ((candidatesAt index responses).map (streamedContent json)) ∧
      reasoningAt index (forEach (onResponse json id model) responses s).1 =
        String.join ((candidatesAt index responses).map (streamedReasoning json)) := by
  induction responses generalizing s with
  | nil => exact ⟨rfl, rfl⟩
  | cons response responses ih =>
    obtain ⟨hcontent, hreasoning⟩ := onResponse_texts json id model response
    obtain ⟨hcontents, hreasonings⟩ := ih
    unfold forEach andThen
    dsimp only
    rw [contentAt_append, reasoningAt_append, hcontent, hreasoning, hcontents, hreasonings,
      candidatesAt_cons, map_append, map_append, String.join_append,
      String.join_append]
    exact ⟨rfl, rfl⟩

end

/-! ## When a stream reaches the client -/

section

variable {α : Type u} (json : JsonCodec α)

def hasCalls (candidate : Candidate α) : Bool :=
  candidate.parts.any fun part =>
    match part with
    | .functionCall _ _ _ => true
    | _ => false

def CallsInFirst (response : GeminiChatResponse α) : Prop :=
  match response.candidates with
  | [] => True
  | first :: others =>
    hasCalls first = true → first.index = 0 ∧ ∀ candidate ∈ others, hasCalls candidate = false

instance (response : GeminiChatResponse α) : Decidable (CallsInFirst response) :=
  match response with
  | ⟨[]⟩ => .isTrue trivial
  | ⟨first :: others⟩ =>
    inferInstanceAs (Decidable (hasCalls first = true → first.index = 0 ∧
      ∀ candidate ∈ others, hasCalls candidate = false))

structure WellFormed (responses : List (GeminiChatResponse α)) : Prop where
  names : ∀ call ∈ callsOf json (responses.flatMap candidates), call.name ≠ ""
  ids : ((callsOf json (responses.flatMap GeminiChatResponse.candidates)).map ToolCall.id).Nodup

variable {json}

theorem hasCalls_eq_false_iff {candidate : Candidate α} :
    hasCalls candidate = false ↔ callsOf json [candidate] = [] := by
  unfold hasCalls callsOf
  rw [flatMap_singleton, flatMap_eq_nil_iff, any_eq_false]
  refine forall₂_congr fun part _ => ?_
  cases part <;> simp [partCalls]

variable {candidates : List (Candidate α)}

theorem callsOf_eq_nil_iff :
    callsOf json candidates = [] ↔ ∀ candidate ∈ candidates, hasCalls candidate = false := by
  induction candidates with
  | nil => simp [callsOf]
  | cons candidate candidates ih =>
    rw [callsOf_cons, append_eq_nil_iff, ih, forall_mem_cons, ← hasCalls_eq_false_iff]

theorem callsOf_sublist {first second : List (Candidate α)} (h : first.Sublist second) :
    (callsOf json first).Sublist (callsOf json second) := (h.flatMap _).flatMap _

private theorem candidatesAt_sublist (index : Nat) (responses : List (GeminiChatResponse α)) :
    (candidatesAt index responses).Sublist (responses.flatMap GeminiChatResponse.candidates) :=
  List.Sublist.flatMap_right responses fun _ _ => filter_sublist

theorem eq_nil_of_clearCall {calls : List ToolCall} (hnames : ∀ call ∈ calls, call.name ≠ "")
    (h : (calls.map clearCall).map ToolCall.nameAndArguments =
      calls.map ToolCall.nameAndArguments) : calls = [] := by
  cases calls with
  | nil => rfl
  | cons call =>
    rw [map_cons, map_cons, map_cons] at h
    have hname : "" = call.name := congrArg Prod.fst (List.cons.inj h).1
    exact absurd hname.symm (hnames call mem_cons_self)

theorem extend_unargued (call : ToolCall) : (unargued call).extend (clearCall call) = call := by
  have hsame : ∀ s : String, (if s = "" then "" else s) = s := by
    intro s
    split
    · exact Eq.symm ‹_›
    · rfl
  cases call with
  | mk id name arguments =>
    change mk (if id = "" then "" else id) (if name = "" then "" else name) ("" ++ arguments) = _
    rw [hsame, hsame, String.empty_append]

private theorem zipWith_extend (calls : List ToolCall) :
    List.zipWith extend (calls.map unargued) (calls.map clearCall) = calls := by
  induction calls with
  | nil => rfl
  | cons call calls ih => rw [map_cons, map_cons, zipWith_cons_cons, ih, extend_unargued]

variable (json) {responses : List (GeminiChatResponse α)}

theorem WellFormed.ids_of_sublist (h : WellFormed json responses)
    (hsub : candidates.Sublist (responses.flatMap GeminiChatResponse.candidates)) :
    ((callsOf json candidates).map ToolCall.id).Nodup :=
  h.ids.sublist ((callsOf_sublist hsub).map _)

theorem WellFormed.names_of_sublist (h : WellFormed json responses)
    (hsub : candidates.Sublist (responses.flatMap GeminiChatResponse.candidates)) :
    ∀ call ∈ callsOf json candidates, call.name ≠ "" :=
  fun call hcall => h.names call ((callsOf_sublist hsub).subset hcall)

variable (id model : String) (includeUsage : Bool)

theorem tracks_init (index : Nat) : Tracks index {} [] := ⟨rfl, by simp⟩

section

variable {index : Nat} {response : GeminiChatResponse α} {responses : List (GeminiChatResponse α)}

theorem atIndex_sublist : (atIndex index response).Sublist
    ((response :: responses).flatMap GeminiChatResponse.candidates) :=
  filter_sublist.trans (sublist_append_left _ _)

theorem callsOf_atIndex {first : Candidate α} {others : List (Candidate α)}
    (hcandidates : response.candidates = first :: others) (hindex : first.index = index) :
    callsOf json (atIndex index response) =
      callsOf json [first] ++ callsOf json (others.filter fun c => c.index = index) := by
  rw [atIndex, hcandidates, filter_cons_of_pos (by simpa using hindex), callsOf_cons]

theorem gather_numbered_append (first second : List ToolCall) :
    (gather extend (numbered 0 first ++ numbered first.length second)).map Prod.snd =
      first ++ second := by
  have hall := numbered_append 0 first second
  rw [Nat.zero_add] at hall
  rw [← hall, gather_numbered, numbered_snd]

theorem firstCalls_eq {first : Candidate α} {others : List (Candidate α)}
    (hcandidates : response.candidates = first :: others) :
    firstCalls json response = callsOf json [first] := by
  rw [firstCalls, hcandidates]
  rfl

theorem callsAt_handler (h : WellFormed json (response :: responses)) :
    callsAt index (geminiChatStreamHandler json id model includeUsage (response :: responses)) =
      (gather ToolCall.extend (fragmentsAt index (onResponse json id model response {}).1 ++
        numbered (callsOf json (atIndex index response)).length
          (callsOf json (candidatesAt index responses)))).map Prod.snd := by
  have husage : fragmentsAt index (if includeUsage then
      [{ id := id, model := model, choices := [] }] else []) = [] := by
    split <;> rfl
  have hids := h.ids_of_sublist json (candidatesAt_sublist index (response :: responses))
  rw [candidatesAt_cons, callsOf_append] at hids
  obtain ⟨htracks, hsent⟩ := (tracks_init index).onResponse json id model
    (h.ids_of_sublist json atIndex_sublist)
  unfold callsAt geminiChatStreamHandler forEach andThen
  dsimp only
  rw [fragmentsAt_append, fragmentsAt_append, husage, append_nil,
    fragmentsAt_later htracks hsent hids]
  rfl

theorem fragmentsAt_first_response (h : WellFormed json (response :: responses)) :
    fragmentsAt index (onResponse json id model response {}).1 =
      if firstCalls json response ≠ [] then
        (if index = 0 then numbered 0 ((firstCalls json response).map unargued) else []) ++
          numbered 0 ((callsOf json (atIndex index response)).map clearCall)
      else numbered 0 (callsOf json (atIndex index response)) := by
  obtain ⟨s', isStop, htracks, hsame, heq⟩ := onResponse_eq json id model response {}
  obtain ⟨hstart, htool⟩ := startToolCalls_indexChoices json
    (fun index => htracks (tracks_init index))
    (h.ids_of_sublist json ((take_sublist _ _).trans (sublist_append_left _ _)))
  have hcalls := ((htracks (tracks_init index)).indexChoices json
    (h.ids_of_sublist json atIndex_sublist)).1
  rw [heq]
  simp only [andThen, fragmentsAt_append, sendStop_adds, append_nil, sendChoices_fragments,
    indexChoices_sendResponseCount, hsame, htool, true_and, decide_eq_true_eq, hstart,
    numbered_map _ _ clearCall]
  rw [hcalls]
  rfl

variable {id json includeUsage model}

private theorem callsAt_of_no_first (h : WellFormed json (response :: responses))
    (hfirst : firstCalls json response = []) :
    callsAt index (geminiChatStreamHandler json id model includeUsage (response :: responses)) =
      callsOf json (candidatesAt index (response :: responses)) := by
  rw [callsAt_handler json id model includeUsage h, fragmentsAt_first_response json id model h,
    if_neg (not_not_intro hfirst), candidatesAt_cons, callsOf_append, gather_numbered_append]

theorem callsAt_of_ne_zero (h : WellFormed json (response :: responses))
    (hfirst : firstCalls json response ≠ []) (hindex : index ≠ 0) :
    callsAt index (geminiChatStreamHandler json id model includeUsage (response :: responses)) =
      (callsOf json (atIndex index response)).map clearCall ++
        callsOf json (candidatesAt index responses) := by
  rw [callsAt_handler json id model includeUsage h, fragmentsAt_first_response json id model h,
    if_pos hfirst, if_neg hindex, nil_append, ← length_map (f := clearCall),
    gather_numbered_append]

variable (json id model includeUsage)

theorem callsAt_zero (h : WellFormed json (response :: responses)) {first : Candidate α}
    {others : List (Candidate α)} (hcandidates : response.candidates = first :: others)
    (hfirst : callsOf json [first] ≠ []) (hindex : first.index = 0) :
    callsAt 0 (geminiChatStreamHandler json id model includeUsage (response :: responses)) =
      callsOf json [first] ++ ((callsOf json (others.filter fun c => c.index = 0)).map clearCall ++
        callsOf json (candidatesAt 0 responses)) := by
  have hat := callsOf_atIndex json hcandidates hindex
  have hrest := numbered_append 0 ((callsOf json (atIndex 0 response)).map clearCall)
    (callsOf json (candidatesAt 0 responses))
  rw [Nat.zero_add, length_map] at hrest
  rw [callsAt_handler json id model includeUsage h, fragmentsAt_first_response json id model h,
    firstCalls_eq json hcandidates, if_pos hfirst, if_pos rfl, append_assoc, ← hrest, hat,
    map_append, append_assoc, gather_numbered_twice (by simp), zipWith_extend, numbered_snd]

end

theorem forall_mem_candidatesAt {P : Candidate α → Prop} :
    (∀ index, ∀ candidate ∈ candidatesAt index responses, P candidate) ↔
      ∀ response ∈ responses, ∀ candidate ∈ response.candidates, P candidate := by
  constructor
  · intro h response hresponse candidate hcandidate
    refine h candidate.index candidate (mem_flatMap.mpr ⟨response, hresponse, ?_⟩)
    exact mem_filter.mpr ⟨hcandidate, by simp⟩
  · intro h index candidate hcandidate
    obtain ⟨response, hresponse, hmem⟩ := mem_flatMap.mp hcandidate
    exact h response hresponse candidate (mem_filter.mp hmem).1

theorem texts_iff (responses : List (GeminiChatResponse α)) (index : Nat) :
    (Spells (shown (((candidatesAt index responses).flatMap parts).flatMap contentPieces))
        (contentAt index (geminiChatStreamHandler json id model includeUsage responses)) ∧
      Spells
        (shown (((candidatesAt index responses).flatMap parts).flatMap thoughtPieces))
        (reasoningAt index (geminiChatStreamHandler json id model includeUsage responses))) ↔
      ∀ candidate ∈ candidatesAt index responses, Apart candidate := by
  have husage : contentAt index (if includeUsage then
        [{ id := id, model := model, choices := [] }] else []) = "" ∧
      reasoningAt index (if includeUsage then
        [{ id := id, model := model, choices := [] }] else []) = "" := by
    split <;> exact ⟨rfl, rfl⟩
  unfold geminiChatStreamHandler
  rw [contentAt_append, reasoningAt_append, husage.1, husage.2, String.append_empty,
    String.append_empty, (contentAt_stream responses).1,
    (contentAt_stream responses).2]
  exact streamed_iff (candidatesAt index responses)

def CallsReach (index : Nat) (responses : List (GeminiChatResponse α))
    (chunks : List StreamResponse) : Prop :=
  (callsAt index chunks).map ToolCall.nameAndArguments =
    (callsOf json (candidatesAt index responses)).map ToolCall.nameAndArguments

def CallsArrive (index : Nat) (responses : List (GeminiChatResponse α)) : Prop :=
  CallsReach json index responses (geminiChatStreamHandler json id model includeUsage responses)

section

variable {response : GeminiChatResponse α} {responses : List (GeminiChatResponse α)}

variable {id json includeUsage model}

variable {first : Candidate α} {others : List (Candidate α)}

private theorem callsOf_others_eq_nil (h : WellFormed json (response :: responses))
    (hcandidates : response.candidates = first :: others) (hsome : callsOf json [first] ≠ [])
    (hindex : first.index = 0)
    (hreach : CallsArrive json id model includeUsage 0 (response :: responses)) :
    callsOf json (others.filter fun c => c.index = 0) = [] := by
  have hat := callsOf_atIndex json hcandidates hindex
  rw [CallsArrive, CallsReach, callsAt_zero json id model includeUsage h hcandidates hsome hindex,
    candidatesAt_cons, callsOf_append, hat, append_assoc, map_append, map_append,
    map_append, map_append] at hreach
  refine eq_nil_of_clearCall (fun call hcall => ?_)
    (append_cancel_right (append_cancel_left hreach))
  have hmem : call ∈ callsOf json (atIndex 0 response) := by
    rw [hat]
    exact mem_append_right _ hcall
  exact h.names_of_sublist json atIndex_sublist call hmem

private theorem callsInFirst_of_callsReach (h : WellFormed json (response :: responses))
    (hcandidates : response.candidates = first :: others) (hsome : callsOf json [first] ≠ [])
    (hreach : ∀ index, CallsArrive json id model includeUsage index (response :: responses)) :
    first.index = 0 ∧ ∀ candidate ∈ others, hasCalls candidate = false := by
  have hfirst : firstCalls json response ≠ [] := firstCalls_eq json hcandidates ▸ hsome
  have hother : ∀ candidate ∈ first :: others, candidate.index ≠ 0 →
      hasCalls candidate = false := by
    intro candidate hcandidate hindex
    have hnone : callsOf json (atIndex candidate.index response) = [] := by
      have hreach := hreach candidate.index
      rw [CallsArrive, CallsReach, callsAt_of_ne_zero h hfirst hindex,
        candidatesAt_cons, callsOf_append, map_append, map_append] at hreach
      exact eq_nil_of_clearCall (h.names_of_sublist json atIndex_sublist)
        (append_cancel_right hreach)
    refine callsOf_eq_nil_iff.mp hnone candidate (mem_filter.mpr ⟨?_, by simp⟩)
    rw [hcandidates]
    exact hcandidate
  have hindex : first.index = 0 := by
    by_contra hne
    exact hsome (hasCalls_eq_false_iff.mp (hother first mem_cons_self hne))
  refine ⟨hindex, fun candidate hcandidate => ?_⟩
  by_cases hzero : candidate.index = 0
  · have hnone := callsOf_others_eq_nil h hcandidates hsome hindex (hreach 0)
    exact callsOf_eq_nil_iff.mp hnone candidate (mem_filter.mpr ⟨hcandidate, by simpa using hzero⟩)
  · exact hother candidate (mem_cons_of_mem _ hcandidate) hzero

private theorem callsReach_of_callsInFirst (h : WellFormed json (response :: responses))
    (hcandidates : response.candidates = first :: others) (hsome : callsOf json [first] ≠ [])
    (hindex : first.index = 0)
    (hothers : ∀ candidate ∈ others, hasCalls candidate = false) (index : Nat) :
    CallsArrive json id model includeUsage index (response :: responses) := by
  have hfirst : firstCalls json response ≠ [] := firstCalls_eq json hcandidates ▸ hsome
  have hnone : callsOf json (others.filter fun c => c.index = index) = [] :=
    callsOf_eq_nil_iff.mpr fun candidate hcandidate =>
      hothers candidate (mem_filter.mp hcandidate).1
  unfold CallsArrive CallsReach
  by_cases hzero : index = 0
  · rw [hzero] at hnone ⊢
    rw [callsAt_zero json id model includeUsage h hcandidates hsome hindex, candidatesAt_cons,
      callsOf_append, callsOf_atIndex json hcandidates hindex, hnone, map_nil,
      nil_append, append_nil]
  · rw [callsAt_of_ne_zero h hfirst hzero, candidatesAt_cons,
      callsOf_append, atIndex, hcandidates,
      filter_cons_of_neg (by simpa [hindex] using Ne.symm hzero), hnone]
    rfl

end

variable {id json includeUsage model} {responses : List (GeminiChatResponse α)}

private theorem callsReach_iff {response : GeminiChatResponse α}
    (h : WellFormed json (response :: responses)) :
    (∀ index, CallsArrive json id model includeUsage index (response :: responses)) ↔
      CallsInFirst response := by
  have hnone : firstCalls json response = [] →
      ∀ index, CallsArrive json id model includeUsage index (response :: responses) := by
    intro hfirst index
    rw [CallsArrive, CallsReach, callsAt_of_no_first h hfirst]
  unfold CallsInFirst
  cases hcandidates : response.candidates with
  | nil =>
    refine iff_of_true (hnone ?_) trivial
    rw [firstCalls, hcandidates]
    rfl
  | cons first =>
    cases hhas : hasCalls first with
    | false =>
      refine iff_of_true (hnone ?_) (by simp [hhas])
      rw [firstCalls, hcandidates]
      exact hasCalls_eq_false_iff.mp hhas
    | true =>
      have hsome : callsOf json [first] ≠ [] := by
        rw [Ne, ← hasCalls_eq_false_iff, hhas]
        simp
      constructor
      · intro hreach _
        exact callsInFirst_of_callsReach h hcandidates hsome hreach
      · intro hcond
        obtain ⟨hindex, hothers⟩ := hcond hhas
        exact callsReach_of_callsInFirst h hcandidates hsome hindex hothers

structure Tidy (responses : List (GeminiChatResponse α)) : Prop where
  apart : ∀ response ∈ responses, ∀ candidate ∈ response.candidates, Apart candidate
  calls : ∀ response ∈ responses.head?, CallsInFirst response

variable (json)

/-- An answer in one response reaches the client whole if and only if no
candidate has more than one thought to show, and a stream if and only if it is
tidy. -/
theorem gemini_answer_whole_iff :
    (∀ response : GeminiChatResponse α,
      ResponseReaches json response (responseGeminiChat2OpenAI json response) ↔
        ∀ candidate ∈ response.candidates, OneThought candidate) ∧
    ∀ (id model : String) (includeUsage : Bool) (responses : List (GeminiChatResponse α)),
      WellFormed json responses →
        (StreamReaches json responses
          (geminiChatStreamHandler json id model includeUsage responses) ↔ Tidy responses) := by
  refine ⟨responseReaches_iff, fun id model includeUsage responses h => ?_⟩
  have hcalls : (∀ index, CallsArrive json id model includeUsage index responses) ↔
      ∀ response ∈ responses.head?, CallsInFirst response := by
    cases responses with
    | nil =>
      refine iff_of_true (fun index => ?_) (by simp)
      cases includeUsage <;> rfl
    | cons => simpa using callsReach_iff h
  constructor
  · intro hreaches
    refine ⟨forall_mem_candidatesAt.mp fun index => ?_,
      hcalls.mp fun index => (hreaches index).calls⟩
    exact (texts_iff json id model includeUsage responses index).mp
      ⟨(hreaches index).content, (hreaches index).reasoning⟩
  · intro htidy index
    obtain ⟨hcontent, hreasoning⟩ := (texts_iff json id model includeUsage responses index).mpr
      (forall_mem_candidatesAt.mpr htidy.apart index)
    exact ⟨hcontent, hreasoning, hcalls.mpr htidy.calls index⟩

end

def paris : List (GeminiChatResponse String) :=
  [{ candidates := [{ index := 0, parts := [.thought "Where is it?"] }] },
    { candidates := [{ index := 0, parts := [.text "Here", .inlineData "image/png" "AAAA"] }] },
    { candidates :=
        [{ index := 0
           parts := [.functionCall "1" "map" "\x7b\x7d", .functionCall "2" "weather" "\x7b\x7d"]
           finishReason := some "STOP" }] }]

theorem gemini_answer_whole_paris :
    StreamReaches rawMessage paris
      (geminiChatStreamHandler rawMessage "chatcmpl-1" "gemini-pro" true paris) :=
  ((gemini_answer_whole_iff rawMessage).2 "chatcmpl-1" "gemini-pro" true paris
    ⟨by decide, by decide⟩).mpr ⟨by decide, by decide⟩

/-- Of two thoughts in one response only the last is kept.  In a stream a text
beside a thought becomes reasoning, audio is dropped, and the calls of a second
candidate lose their names. -/
theorem thoughts_and_media_lost :
    (responseGeminiChat2OpenAI rawMessage
        { candidates := [{ index := 0, parts := [.thought "First", .thought "Then"] }] }).map
          OpenAITextResponseChoice.reasoningContent = [some "Then"] ∧
      ¬ ResponseReaches rawMessage
        { candidates := [{ index := 0, parts := [.thought "First", .thought "Then"] }] }
        (responseGeminiChat2OpenAI rawMessage
          { candidates := [{ index := 0, parts := [.thought "First", .thought "Then"] }] }) ∧
      contentAt 0 (geminiChatStreamHandler rawMessage "" "" false
        [{ candidates := [{ index := 0, parts := [.thought "Hm", .text "Yes"] }] }]) = "" ∧
      contentAt 0 (geminiChatStreamHandler rawMessage "" "" false
        [{ candidates := [{ index := 0, parts := [.inlineData "audio/wav" "AAAA"] }] }]) = "" ∧
      (callsAt 1 (geminiChatStreamHandler rawMessage "" "" false [{ candidates :=
            [{ index := 0, parts := [.functionCall "1" "map" "\x7b\x7d"] },
              { index := 1, parts := [.functionCall "2" "map" "\x7b\x7d"] }] }])).map
        name = [""] := by
  refine ⟨by decide, ?_, by decide, by decide, by decide⟩
  rw [responseReaches_iff]
  intro h
  have hone := h _ mem_cons_self
  exact absurd hone (by unfold OneThought; decide)

end NewApi.RelayGemini
