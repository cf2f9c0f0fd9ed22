import Mathlib.Algebra.Order.Ring.Nat
import Mathlib.Algebra.Order.BigOperators.Group.List
import Mathlib.Data.List.Nodup

/-!
# Tool calls and their results in Gemini requests

The messages of `GeminiToOpenAIRequest` in `service/convert.go`.  It makes up the id
of a function call from its place in its own content, and gives a function response
the id of the last call before it in the same content.  A conversation puts calls and
responses into different contents, and calls into several.
-/

namespace NewApi.Requests

open List

/-! ## Messages -/

structure ToolCallRequest where
  id : String
  name : String
  arguments : String

inductive MediaContent where
  | text (text cacheControl : String)
  | imageUrl (url detail mimeType : String)

inductive MessageContent where
  | null
  | text (text : String)
  | media (parts : List MediaContent)

/-- A string is one text part, also if it is empty. -/
def MessageContent.parseContent : MessageContent → List MediaContent
  | .null => []
  | .text s => [.text s ""]
  | .media list => list

inductive Message where
  | chat (role : String) (content : MessageContent) (toolCalls : List ToolCallRequest)
  | toolResult (name : Option String) (toolCallId content : String)

open Message

def Message.sent (role : String) (content : MessageContent) (toolCalls : List ToolCallRequest) :
    List Message :=
  if content.parseContent ≠ [] ∨ toolCalls ≠ [] then [.chat role content toolCalls] else []

/-! ## Gemini contents -/

structure GeminiInlineData where
  mimeType : String
  data : String

structure GeminiFileData where
  mimeType : String
  fileUri : String

structure GeminiFunctionCall where
  functionName : String
  arguments : String

structure GeminiFunctionResponse where
  name : String
  response : String

structure GeminiPart where
  text : String := ""
  inlineData : Option GeminiInlineData := none
  fileData : Option GeminiFileData := none
  functionCall : Option GeminiFunctionCall := none
  functionResponse : Option GeminiFunctionResponse := none

open GeminiPart

structure GeminiChatContent where
  role : String
  parts : List GeminiPart

structure GeminiChatRequest where
  contents : List GeminiChatContent
  systemInstructions : Option GeminiChatContent

def convertGeminiRoleToOpenAI : String → String
  | "user" => "user"
  | "model" => "assistant"
  | "function" => "function"
  | _ => "user"

def GeminiInlineData.url (data : GeminiInlineData) : String :=
  "data:" ++ data.mimeType ++ ";base64," ++ data.data

inductive GeminiPiece where
  | media (content : MediaContent)
  | call (call : GeminiFunctionCall)
  | response (response : GeminiFunctionResponse)

def GeminiPart.piece (part : GeminiPart) : Option GeminiPiece :=
  if part.text ≠ "" then some (.media (.text part.text ""))
  else
    match part.inlineData, part.fileData, part.functionCall, part.functionResponse with
    | some data, _, _, _ => some (.media (.imageUrl data.url "auto" data.mimeType))
    | none, some file, _, _ => some (.media (.imageUrl file.fileUri "auto" file.mimeType))
    | none, none, some call, _ => some (.call call)
    | none, none, none, some response => some (.response response)
    | none, none, none, none => none

structure GeminiAcc where
  mediaContents : List MediaContent := []
  toolCalls : List ToolCallRequest := []
  messages : List Message := []

open GeminiAcc

def GeminiAcc.add (acc : GeminiAcc) : GeminiPiece → GeminiAcc
  | .media content => { acc with mediaContents := acc.mediaContents ++ [content] }
  | .call call =>
    { acc with
      toolCalls := acc.toolCalls ++
        [⟨"call_" ++ toString (acc.toolCalls.length + 1), call.functionName, call.arguments⟩] }
  | .response response =>
    { acc with
      messages := acc.messages ++
        [.toolResult none ("call_" ++ toString acc.toolCalls.length) response.response] }

def convertGeminiPart (acc : GeminiAcc) (part : GeminiPart) : GeminiAcc :=
  match part.piece with
  | none => acc
  | some piece => acc.add piece

def GeminiAcc.content (acc : GeminiAcc) : MessageContent :=
  if acc.toolCalls ≠ [] then .null
  else
    match acc.mediaContents with
    | [.text s _] => .text s
    | [] => .null
    | contents => .media contents

def convertGeminiContent (content : GeminiChatContent) : List Message :=
  let acc := content.parts.foldl convertGeminiPart {}
  acc.messages ++ sent (convertGeminiRoleToOpenAI content.role) acc.content acc.toolCalls

def extractTextFromGeminiParts (parts : List GeminiPart) : String :=
  String.join (((parts.map GeminiPart.text).filter fun s => s ≠ "").intersperse "\n")

def geminiSystemMessages (request : GeminiChatRequest) : List Message :=
  request.systemInstructions.toList.map fun content =>
    .chat "system" (.text (extractTextFromGeminiParts content.parts)) []

def geminiToOpenAIRequest (request : GeminiChatRequest) : List Message :=
  geminiSystemMessages request ++ request.contents.flatMap convertGeminiContent

/-! ## Ids -/

def callId (n : Nat) : String := "call_" ++ toString n

theorem callId_injective : Function.Injective callId := by
  intro m n h
  have hrepr : m.repr = n.repr := (String.append_right_inj "call_").mp h
  have hdigits : Nat.toDigits 10 m = Nat.toDigits 10 n := by
    rw [← Nat.toList_repr, hrepr, Nat.toList_repr]
  calc m = Nat.ofDigitChars 10 (Nat.toDigits 10 m) 0 :=
        (Nat.ofDigitChars_toDigits (by decide) (by decide)).symm
    _ = Nat.ofDigitChars 10 (Nat.toDigits 10 n) 0 := by rw [hdigits]
    _ = n := Nat.ofDigitChars_toDigits (by decide) (by decide)

def messageCallIds : Message → List String
  | .chat _ _ toolCalls => toolCalls.map ToolCallRequest.id
  | .toolResult .. => []

def messageResultIds : Message → List String
  | .chat .. => []
  | .toolResult _ toolCallId _ => [toolCallId]

section

variable (messages : List Message)

def callIds : List String := messages.flatMap messageCallIds

def resultIds : List String := messages.flatMap messageResultIds

/-- The ids are distinct, and every result has the id of the call that it answers; `answers` are the
numbers of these calls. -/
def Linked (answers : List Nat) : Prop :=
  (callIds messages).Nodup ∧
    List.Forall₂ (fun id call => (callIds messages)[call]? = some id) (resultIds messages) answers

end

def GeminiPart.isCall (part : GeminiPart) : Bool :=
  match part.piece with
  | some (.call _) => true
  | _ => false

def callCount (parts : List GeminiPart) : Nat := parts.countP isCall

def callsBefore : Nat → List GeminiPart → List Nat
  | _, [] => []
  | n, part :: parts =>
    match part.piece with
    | some (.call _) => callsBefore (n + 1) parts
    | some (.response _) => n :: callsBefore n parts
    | _ => callsBefore n parts

namespace GeminiChatRequest

variable (request : GeminiChatRequest)

def ownCallsBefore : List Nat := request.contents.flatMap fun content => callsBefore 0 content.parts

def OneCallContent : Prop :=
  request.contents.Pairwise fun first second =>
    callCount first.parts = 0 ∨ callCount second.parts = 0

instance : Decidable request.OneCallContent := by
  unfold OneCallContent
  infer_instance

end GeminiChatRequest

structure GeminiAcc.Labels (acc acc' : GeminiAcc) (parts : List GeminiPart) : Prop where
  calls : acc'.toolCalls.map ToolCallRequest.id =
    acc.toolCalls.map ToolCallRequest.id ++
      (List.range' (acc.toolCalls.length + 1) (callCount parts)).map callId
  callIds : callIds acc'.messages = callIds acc.messages
  resultIds : resultIds acc'.messages =
    resultIds acc.messages ++ (callsBefore acc.toolCalls.length parts).map callId

open GeminiAcc

theorem foldl_convertGeminiPart_labels (parts : List GeminiPart) (acc : GeminiAcc) :
    acc.Labels (parts.foldl convertGeminiPart acc) parts := by
  induction parts generalizing acc with
  | nil => constructor <;> simp [callCount, callsBefore]
  | cons part parts ih =>
    rcases ih (convertGeminiPart acc part) with ⟨hcalls, hcallIds, hresultIds⟩
    rw [foldl_cons]
    cases hpiece : part.piece with
    | none =>
      have hpart : convertGeminiPart acc part = acc := by simp [convertGeminiPart, hpiece]
      rw [hpart] at hcalls hcallIds hresultIds ⊢
      constructor
      · simpa [callCount, isCall, hpiece] using hcalls
      · exact hcallIds
      · simpa [callsBefore, hpiece] using hresultIds
    | some piece =>
      have hpart : convertGeminiPart acc part = acc.add piece := by
        simp [convertGeminiPart, hpiece]
      rw [hpart] at hcalls hcallIds hresultIds ⊢
      cases piece with
      | media =>
        constructor
        · simpa [callCount, isCall, hpiece, add] using hcalls
        · exact hcallIds
        · simpa [callsBefore, hpiece, add] using hresultIds
      | call =>
        constructor
        · simpa [callCount, isCall, hpiece, add, callId, range'_succ] using hcalls
        · exact hcallIds
        · simpa [callsBefore, hpiece, add] using hresultIds
      | response =>
        constructor
        · simpa [callCount, isCall, hpiece, add] using hcalls
        · simpa [add, callIds, messageCallIds] using hcallIds
        · simpa [callsBefore, hpiece, add, resultIds, messageResultIds, callId]
            using hresultIds

theorem callIds_sent (role : String) (content : MessageContent) (toolCalls : List ToolCallRequest) :
    callIds (Message.sent role content toolCalls) = toolCalls.map ToolCallRequest.id := by
  unfold Message.sent
  split
  · simp [callIds, messageCallIds]
  next h =>
  rw [not_or, not_not, not_not] at h
  rw [h.2]
  rfl

namespace GeminiChatRequest

variable (request : GeminiChatRequest)

theorem callIds_eq : callIds (geminiToOpenAIRequest request) =
    request.contents.flatMap fun content =>
      (List.range' 1 (callCount content.parts)).map callId := by
  have hsystem : callIds (geminiSystemMessages request) = [] := by
    unfold geminiSystemMessages
    cases request.systemInstructions <;> rfl
  unfold geminiToOpenAIRequest
  rw [callIds, flatMap_append, ← callIds, hsystem, nil_append, flatMap_assoc]
  apply flatMap_congr
  intro content _
  have hlabels := foldl_convertGeminiPart_labels content.parts {}
  unfold convertGeminiContent
  rw [flatMap_append, ← callIds, ← callIds, hlabels.callIds, callIds_sent, hlabels.calls]
  simp [callIds]

theorem resultIds_eq :
    resultIds (geminiToOpenAIRequest request) = request.ownCallsBefore.map callId := by
  have hsystem : resultIds (geminiSystemMessages request) = [] := by
    unfold geminiSystemMessages
    cases request.systemInstructions <;> rfl
  unfold geminiToOpenAIRequest ownCallsBefore
  rw [resultIds, flatMap_append, ← resultIds, hsystem, nil_append, flatMap_assoc, map_flatMap]
  apply flatMap_congr
  intro content _
  have hlabels := foldl_convertGeminiPart_labels content.parts {}
  unfold convertGeminiContent
  rw [flatMap_append, ← resultIds, ← resultIds, hlabels.resultIds, Message.sent]
  split <;> simp [resultIds, messageResultIds]

def totalCalls : Nat := (request.contents.map fun content => callCount content.parts).sum

theorem callIds_of_oneCallContent (h : request.OneCallContent) :
    callIds (geminiToOpenAIRequest request) = (List.range' 1 request.totalCalls).map callId := by
  rw [callIds_eq, totalCalls]
  unfold OneCallContent at h
  generalize request.contents = contents at h ⊢
  induction h with
  | nil => rfl
  | @cons content contents hhead _ ih =>
    rw [flatMap_cons, map_cons, sum_cons, ih]
    by_cases hcount : callCount content.parts = 0
    · rw [hcount, Nat.zero_add]
      rfl
    -- no other content has calls
    have hothers : (contents.map fun content => callCount content.parts).sum = 0 := by
      apply sum_eq_zero
      intro n hn
      rcases mem_map.mp hn with ⟨other, hother, rfl⟩
      exact (hhead other hother).resolve_left hcount
    rw [hothers]
    simp

theorem le_of_mem_callsBefore {parts : List GeminiPart} {n k : Nat} (h : k ∈ callsBefore n parts) :
    k ≤ n + callCount parts := by
  induction parts generalizing n with
  | nil => cases h
  | cons part parts ih =>
    unfold callsBefore at h
    have hcount : callCount (part :: parts) =
        callCount parts + if part.isCall = true then 1 else 0 := countP_cons
    split at h
    · next call hpiece =>
      have hcall : part.isCall = true := by simp [isCall, hpiece]
      have hle := ih h
      rw [hcount, if_pos hcall]
      omega
    · rcases mem_cons.mp h with rfl | hrest
      · omega
      · have hle := ih hrest
        omega
    · have hle := ih h
      omega

end GeminiChatRequest

/-- Every content with calls has a call with the first id. -/
theorem oneCallContent_of_nodup {request : GeminiChatRequest}
    (h : (callIds (geminiToOpenAIRequest request)).Nodup) : request.OneCallContent := by
  rw [request.callIds_eq, nodup_flatMap] at h
  refine h.2.imp fun {first second} hapart => ?_
  by_contra hcalls
  rw [not_or] at hcalls
  have hfirst : ∀ {n}, n ≠ 0 → callId 1 ∈ (range' 1 n).map callId :=
    fun hn => mem_map_of_mem (by simp [mem_range'_1]; omega)
  exact hapart (hfirst hcalls.1) (hfirst hcalls.2)

private theorem ownCallsBefore_of_linked {request : GeminiChatRequest} {answers : List Nat}
    (h : Linked (geminiToOpenAIRequest request) answers) :
    request.ownCallsBefore = answers.map (· + 1) := by
  obtain ⟨hnodup, hlinked⟩ := h
  rw [request.resultIds_eq, request.callIds_of_oneCallContent (oneCallContent_of_nodup hnodup),
    forall₂_map_left_iff] at hlinked
  rw [← forall₂_eq_eq_eq, forall₂_map_right_iff]
  refine hlinked.imp fun own call hcall => ?_
  rw [getElem?_map, Option.map_eq_some_iff] at hcall
  obtain ⟨n, hn, hid⟩ := hcall
  obtain ⟨hlt, hget⟩ := List.getElem?_eq_some_iff.mp hn
  rw [getElem_range'] at hget
  have := callId_injective hid
  omega

/--
The ids of a conversation are distinct and every result has the id of its call exactly if at most
one content has function calls and every response answers the last call before it in the same
content.
-/
theorem gemini_calls_linked_iff (request : GeminiChatRequest) (answers : List Nat) :
    Linked (geminiToOpenAIRequest request) answers ↔
      request.OneCallContent ∧ request.ownCallsBefore = answers.map (· + 1) := by
  refine ⟨fun h => ⟨oneCallContent_of_nodup h.1, ownCallsBefore_of_linked h⟩, ?_⟩
  rintro ⟨hone, hown⟩
  constructor
  · rw [request.callIds_of_oneCallContent hone]
    exact (nodup_range' ..).map callId_injective
  · have hbound : ∀ call ∈ answers, call < request.totalCalls := by
      intro call hcall
      have hmem : call + 1 ∈ request.ownCallsBefore := by
        rw [hown]
        exact mem_map_of_mem hcall
      rcases mem_flatMap.mp hmem with ⟨content, hcontent, hk⟩
      have hle := GeminiChatRequest.le_of_mem_callsBefore hk
      have hsum : callCount content.parts ≤ request.totalCalls :=
        le_sum_of_mem (mem_map_of_mem hcontent)
      omega
    rw [request.resultIds_eq, hown, forall₂_map_left_iff, forall₂_map_left_iff]
    apply forall₂_same.mpr
    intro call hcall
    rw [request.callIds_of_oneCallContent hone, getElem?_map, getElem?_range' (hbound call hcall),
      Nat.one_mul, Nat.add_comm 1 call]
    rfl

def weatherCallPart : GeminiPart :=
  { functionCall := some ⟨"get_weather", "null"⟩ }

def weatherResponsePart : GeminiPart :=
  { functionResponse := some ⟨"get_weather", "null"⟩ }

def twoTurns : GeminiChatRequest where
  contents :=
    [⟨"model", [weatherCallPart]⟩, ⟨"user", [weatherResponsePart]⟩, ⟨"model", [weatherCallPart]⟩,
      ⟨"user", [weatherResponsePart]⟩]
  systemInstructions := none

/-- A response beside its call is linked to it. -/
theorem gemini_calls_linked_beside :
    Linked (geminiToOpenAIRequest ⟨[⟨"model", [weatherCallPart, weatherResponsePart]⟩], none⟩)
      [0] := by
  apply (gemini_calls_linked_iff _ [0]).mpr
  decide

/-- Both calls have the same id, and both results another one. -/
theorem gemini_calls_linked_counterexample :
    callIds (geminiToOpenAIRequest twoTurns) = ["call_1", "call_1"] ∧
      resultIds (geminiToOpenAIRequest twoTurns) = ["call_0", "call_0"] := by
  decide

end NewApi.Requests
