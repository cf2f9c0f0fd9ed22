import NewApi.Dto.ChatRequest
import NewApi.Foundation.Fragments
import NewApi.Foundation.InOrder

/-!
# Chat requests for the Responses API

The messages of `ChatCompletionsRequestToResponsesRequest` in
`service/openaicompat/chat_to_responses.go`.
-/

namespace NewApi.OpenAICompat

open Foundation List Dto.Chat

inductive ImageRef where
  | url (url : String)
  | image (image : MessageImageUrl)
  deriving DecidableEq

inductive InputPart where
  | inputText (text : String)
  | outputText (text : String)
  | inputImage (image : ImageRef)
  | inputAudio (audio : MessageInputAudio)
  | inputFile (file : MessageFile)
  | inputVideo (video : MessageVideoUrl)
  deriving DecidableEq

inductive InputContent where
  | text (text : String)
  | parts (parts : List InputPart)
  deriving DecidableEq

inductive InputItem where
  | message (role : String) (content : InputContent)
  | functionCall (callId name arguments : String)
  | functionCallOutput (callId output : String)
  deriving DecidableEq

structure ChatRequest where
  model : String
  n : Option Int := none
  messages : List Message

structure ResponsesRequest where
  model : String
  input : List InputItem
  instructions : Option String

def normalizeChatImageURLToString (image : MessageImageUrl) : ImageRef :=
  if image.url ≠ "" then .url image.url else .image image

def inputPart (role : String) : MediaContent → InputPart
  | .text s => if role = "assistant" then .outputText s else .inputText s
  | .imageUrl image => .inputImage (normalizeChatImageURLToString image)
  | .inputAudio audio => .inputAudio audio
  | .file file => .inputFile file
  | .videoUrl video => .inputVideo video

def inputContent (role : String) : Content → InputContent
  | .null => .text ""
  | .text s => .text s
  | content => .parts (content.parseContent.map (inputPart role))

def functionCall (call : ToolCallRequest) : List InputItem :=
  if trimSpace call.id = "" then []
  else if call.type ≠ "" ∧ call.type ≠ "function" then []
  else if trimSpace call.name = "" then []
  else [.functionCall call.id (trimSpace call.name) call.arguments]

structure Built where
  instructionsParts : List String := []
  inputItems : List InputItem := []

def instructionsText : Content → String
  | .null => ""
  | .text s => trimSpace s
  | content => trimSpace (joinWith "\n"
      ((content.parseContent.filterMap MediaContent.text?).filter fun s => trimSpace s ≠ ""))

section

variable (marshal : List ContentItem → String)

def toolOutput : Content → String
  | .null => ""
  | .text s => s
  | .items list => marshal list

def toolItem (message : Message) : InputItem :=
  if trimSpace message.toolCallId = "" then
    .message "user" (.text ("[tool_output_missing_call_id] " ++ toolOutput marshal message.content))
  else .functionCallOutput (trimSpace message.toolCallId) (toolOutput marshal message.content)

def Built.visit (b : Built) (message : Message) : Built :=
  let role := trimSpace message.role
  if role = "" then b
  else if role = "tool" ∨ role = "function" then
    { b with inputItems := b.inputItems ++ [toolItem marshal message] }
  else if role = "system" ∨ role = "developer" then
    if instructionsText message.content ≠ "" then
      { b with instructionsParts := b.instructionsParts ++ [instructionsText message.content] }
    else b
  else
    { b with
      inputItems := b.inputItems ++ [.message role (inputContent role message.content)] ++
        (if role = "assistant" then message.parseToolCalls.flatMap functionCall else []) }

def chatCompletionsRequestToResponsesRequest (req : ChatRequest) : Except String ResponsesRequest :=
  if req.model = "" then .error "model is required"
  else if req.n.getD 1 > 1 then
    .error "n>1 is not supported in responses compatibility mode"
  else
    let b := req.messages.foldl (Built.visit marshal) {}
    .ok
      { model := req.model
        input := b.inputItems
        instructions :=
          if b.instructionsParts ≠ [] then some (joinWith "\n\n" b.instructionsParts)
          else none }

end

def nonBlankTexts (content : Content) : List String :=
  ((content.parseContent.filterMap MediaContent.text?).filter fun s => trimSpace s ≠ "").map
    trimSpace

def systemTexts (message : Message) : List String :=
  if trimSpace message.role = "system" ∨ trimSpace message.role = "developer" then
    nonBlankTexts message.content
  else []

def Callable (call : ToolCallRequest) : Prop :=
  trimSpace call.id ≠ "" ∧ (call.type = "" ∨ call.type = "function") ∧ trimSpace call.name ≠ ""

instance (call : ToolCallRequest) : Decidable (Callable call) :=
  inferInstanceAs (Decidable (_ ∧ _ ∧ _))

def Sendable (message : Message) : Prop :=
  trimSpace message.role ≠ "" ∧ ∀ call ∈ message.parseToolCalls, Callable call

instance (message : Message) : Decidable (Sendable message) := inferInstanceAs (Decidable (_ ∧ _))

def callItem (call : ToolCallRequest) : InputItem :=
  .functionCall call.id (trimSpace call.name) call.arguments

def byAddress : MediaContent → MediaContent
  | .imageUrl image => .imageUrl { url := image.url, detail := "" }
  | part => part

def InputPart.media : InputPart → MediaContent
  | .inputText s | .outputText s => .text s
  | .inputImage (.url url) => .imageUrl { url := url, detail := "" }
  | .inputImage (.image image) => .imageUrl { url := image.url, detail := "" }
  | .inputAudio audio => .inputAudio audio
  | .inputFile file => .file file
  | .inputVideo video => .videoUrl video

def InputContent.media : InputContent → List MediaContent
  | .text s => [.text s]
  | .parts list => list.map InputPart.media

def shown (parts : List MediaContent) : List MediaContent := parts.filter (· ≠ .text "")

section

variable (marshal : List ContentItem → String)

/-- The items of a message: the output of a tool, or the message itself with its
text and media and, right after it, the calls of the assistant. -/
inductive Due (message : Message) : List InputItem → Prop where
  | system (h : trimSpace message.role = "system" ∨ trimSpace message.role = "developer") :
      Due message []
  | output (h : trimSpace message.role = "tool" ∨ trimSpace message.role = "function")
      {callId : String} (hid : trimSpace callId = trimSpace message.toolCallId)
      (hcall : trimSpace message.toolCallId ≠ "") :
      Due message [.functionCallOutput callId (toolOutput marshal message.content)]
  -- there is no call to answer
  | orphan (h : trimSpace message.role = "tool" ∨ trimSpace message.role = "function")
      (hcall : trimSpace message.toolCallId = "") :
      Due message [.message "user" (.text
        ("[tool_output_missing_call_id] " ++ toolOutput marshal message.content))]
  | turn (h : trimSpace message.role ∉ ["system", "developer", "tool", "function"])
      {content : InputContent}
      (hcontent : shown content.media = shown (message.content.parseContent.map byAddress)) :
      Due message (.message (trimSpace message.role) content ::
        if trimSpace message.role = "assistant" then message.parseToolCalls.map callItem else [])

end

def Answers (message : Message) (call : ToolCallRequest) : Prop :=
  trimSpace message.toolCallId = trimSpace call.id

variable {lines : List String}

private theorem exists_segments (hne : lines ≠ []) (hlines : ∀ s ∈ lines, trimSpace s ≠ "") :
    ∃ before segments after, (joinWith "\n" lines).toList =
        before ++ ((String.join segments).toList ++ after) ∧
      (∀ c ∈ before, isSpace c = true) ∧ (∀ c ∈ after, isSpace c = true) ∧
      Edged (String.join segments).toList ∧ (lines.map trimSpace).Sublist segments := by
  induction lines with
  | nil => exact absurd rfl hne
  | cons s lines ih =>
    obtain ⟨before, after, hs, hbefore, hafter⟩ := exists_trimSpace s
    have hedged := edged_trimSpace (hlines s mem_cons_self)
    cases lines with
    | nil =>
      refine ⟨before, [trimSpace s], after, ?_, hbefore, hafter, ?_, List.Sublist.refl _⟩
      · simpa [joinWith] using hs
      · simpa using hedged
    | cons t lines =>
      obtain ⟨before', segments, after', hrest, hbefore', hafter', hedged', hsub⟩ :=
        ih (cons_ne_nil t lines) fun u hu => hlines u (mem_cons_of_mem s hu)
      -- what stands between the two cores becomes a segment of its own
      refine ⟨before, trimSpace s :: String.ofList (after ++ '\n' :: before') :: segments,
        after', ?_, hbefore, hafter', ?_, ?_⟩
      · rw [joinWith_cons_cons, String.toList_append, String.toList_append, hs, hrest]
        simp [String.join_cons]
      · have happend := hedged.append hedged' (after ++ '\n' :: before')
        simpa [String.join_cons] using happend
      · exact (hsub.trans (sublist_cons_self _ _)).cons_cons _

private theorem inOrder_instructionsText (content : Content) :
    InOrder (nonBlankTexts content) [instructionsText content] := by
  cases content with
  | null => exact InOrder.of_sublist (nil_sublist _)
  | text s =>
    have hone : nonBlankTexts (.text s) = if trimSpace s ≠ "" then [trimSpace s] else [] := by
      by_cases h : trimSpace s = "" <;>
        simp [nonBlankTexts, Content.parseContent, MediaContent.text?, h]
    rw [hone]
    split
    · exact InOrder.of_sublist (List.Sublist.refl _)
    · exact InOrder.of_sublist (nil_sublist _)
  | items list =>
    have htrimmed : ∀ s ∈ ((Content.items list).parseContent.filterMap
        MediaContent.text?).filter fun s => trimSpace s ≠ "", trimSpace s ≠ "" := by
      intro s hs
      simpa using (mem_filter.mp hs).2
    unfold nonBlankTexts instructionsText
    dsimp only
    generalize ((Content.items list).parseContent.filterMap
      MediaContent.text?).filter (fun s => trimSpace s ≠ "") = lines at htrimmed ⊢
    by_cases hne : lines = []
    · subst hne
      exact InOrder.of_sublist (nil_sublist _)
    obtain ⟨before, segments, after, htext, hbefore, hafter, hedged, hsub⟩ :=
      exists_segments hne htrimmed
    rw [trimSpace_eq htext hbefore hafter hedged, String.ofList_toList]
    exact InOrder.of_join hsub

section

variable (marshal : List ContentItem → String)

def instructionsOf (message : Message) : List String :=
  if trimSpace message.role = "system" ∨ trimSpace message.role = "developer" then
    if instructionsText message.content ≠ "" then [instructionsText message.content] else []
  else []

private theorem visit_instructionsParts (b : Built) (message : Message) :
    (b.visit marshal message).instructionsParts =
      b.instructionsParts ++ instructionsOf message := by
  unfold Built.visit instructionsOf
  by_cases hsystem : trimSpace message.role = "system" ∨ trimSpace message.role = "developer"
  · by_cases htext : instructionsText message.content = "" <;>
      rcases hsystem with hrole | hrole <;> simp [hrole, htext]
  · simp only [hsystem, if_false, append_nil]
    split
    · rfl
    · split <;> rfl

theorem functionCalls_eq {calls : List ToolCallRequest} (h : ∀ call ∈ calls, Callable call) :
    calls.flatMap functionCall = calls.map callItem := by
  induction calls with
  | nil => rfl
  | cons call calls ih =>
    obtain ⟨hid, htype, hname⟩ := h call mem_cons_self
    have hfunction : ¬ (call.type ≠ "" ∧ call.type ≠ "function") := by
      rintro ⟨hnone, hother⟩
      exact htype.elim hnone hother
    have hcall : functionCall call = [callItem call] := by
      rw [functionCall, if_neg hid, if_neg hfunction, if_neg hname, callItem]
    rw [flatMap_cons, hcall, ih fun c hc => h c (mem_cons_of_mem call hc)]
    rfl

private theorem shown_inputContent (role : String) (content : Content) :
    shown (inputContent role content).media = shown (content.parseContent.map byAddress) := by
  have hpart : ∀ part, (inputPart role part).media = byAddress part := by
    intro part
    cases part with
    | text =>
      rw [inputPart]
      split <;> rfl
    | imageUrl =>
      rw [inputPart, normalizeChatImageURLToString]
      split <;> rfl
    | _ => rfl
  cases content with
  | null | text => rfl
  | items => simp only [inputContent, InputContent.media, map_map, Function.comp_def, hpart]

variable {message : Message}

theorem toolItem_due (h : trimSpace message.role = "tool" ∨ trimSpace message.role = "function") :
    Due marshal message [toolItem marshal message] := by
  rw [toolItem]
  split
  · next hcall => exact .orphan h hcall
  · next hcall => exact .output h (trimSpace_idem message.toolCallId) hcall

private theorem visit_inputItems (b : Built) (h : Sendable message) :
    ∃ items, Due marshal message items ∧
      (b.visit marshal message).inputItems = b.inputItems ++ items := by
  obtain ⟨hrole, hcallable⟩ := h
  by_cases htool : trimSpace message.role = "tool" ∨ trimSpace message.role = "function"
  · refine ⟨_, toolItem_due marshal htool, ?_⟩
    simp [Built.visit, if_neg hrole, if_pos htool]
  by_cases hsystem : trimSpace message.role = "system" ∨ trimSpace message.role = "developer"
  · refine ⟨[], .system hsystem, ?_⟩
    simp only [Built.visit, if_neg hrole, if_neg htool, if_pos hsystem, append_nil]
    split <;> rfl
  have hturn : trimSpace message.role ∉ ["system", "developer", "tool", "function"] := by
    intro hlisted
    simp only [mem_cons, not_mem_nil, or_false] at hlisted
    rcases hlisted with hrole | hrole | hrole | hrole
    · exact hsystem (.inl hrole)
    · exact hsystem (.inr hrole)
    · exact htool (.inl hrole)
    · exact htool (.inr hrole)
  refine ⟨_, .turn hturn (shown_inputContent (trimSpace message.role) message.content), ?_⟩
  simp only [Built.visit, if_neg hrole, if_neg htool, if_neg hsystem,
    functionCalls_eq hcallable, append_assoc, singleton_append]

theorem foldl_inputItems {messages : List Message} (h : ∀ m ∈ messages, Sendable m) (b : Built) :
    ∃ groups, List.Forall₂ (Due marshal) messages groups ∧
      (messages.foldl (Built.visit marshal) b).inputItems = b.inputItems ++ groups.flatten := by
  induction messages generalizing b with
  | nil => exact ⟨[], .nil, by simp⟩
  | cons message messages ih =>
    obtain ⟨items, hitems, hvisit⟩ := visit_inputItems marshal b (h message mem_cons_self)
    obtain ⟨groups, hgroups, hrest⟩ :=
      ih (fun m hm => h m (mem_cons_of_mem message hm)) (b.visit marshal message)
    refine ⟨items :: groups, .cons hitems hgroups, ?_⟩
    rw [foldl_cons, hrest, hvisit, flatten_cons, append_assoc]

private theorem systemTexts_of_instructionsOf (message : Message) :
    ∃ pieces, pieces.flatten = systemTexts message ∧
      List.Forall₂ (fun piece text => InOrder piece [text]) pieces (instructionsOf message) := by
  unfold systemTexts instructionsOf
  split
  · have horder := inOrder_instructionsText message.content
    split
    · exact ⟨[nonBlankTexts message.content], by simp, .cons horder .nil⟩
    next hblank =>
    refine ⟨[], ?_, .nil⟩
    rw [not_not.mp hblank] at horder
    have hall := textLength_eq_zero (Nat.le_zero.mp horder.textLength_le)
    have hnone : ∀ s, s ∉ nonBlankTexts message.content := by
      intro s hs
      obtain ⟨t, ht, rfl⟩ := mem_map.mp hs
      have hne : trimSpace t ≠ "" := by simpa using (mem_filter.mp ht).2
      exact hne (hall _ hs)
    exact (eq_nil_iff_forall_not_mem.mpr hnone).symm
  · exact ⟨[], rfl, .nil⟩

private theorem inOrder_instructions (messages : List Message) :
    InOrder (messages.flatMap systemTexts) [joinWith "\n\n" (messages.flatMap instructionsOf)] := by
  have hpieces : ∃ pieces, pieces.flatten = messages.flatMap systemTexts ∧
      List.Forall₂ (fun piece text => InOrder piece [text]) pieces
        (messages.flatMap instructionsOf) := by
    induction messages with
    | nil => exact ⟨[], rfl, .nil⟩
    | cons message messages ih =>
      obtain ⟨pieces, hpieces, hforall⟩ := ih
      obtain ⟨first, hfirst, hhead⟩ := systemTexts_of_instructionsOf message
      refine ⟨first ++ pieces, ?_, ?_⟩
      · rw [flatten_append, hfirst, hpieces, flatMap_cons]
      · rw [flatMap_cons]
        exact rel_append hhead hforall
  obtain ⟨pieces, hpieces, hforall⟩ := hpieces
  rw [← hpieces]
  exact InOrder.joinWith hforall "\n\n"

/-- Every message has its items, in order; the output of a tool carries the id
of the call it answers; the texts of the system are among the instructions. -/
theorem chat_request_reaches_responses {req : ChatRequest} {out : ResponsesRequest}
    (h : chatCompletionsRequestToResponsesRequest marshal req = .ok out)
    (hmessages : ∀ m ∈ req.messages, Sendable m) :
    (∃ groups, List.Forall₂ (Due marshal) req.messages groups ∧ out.input = groups.flatten) ∧
      (∀ message ∈ req.messages, ∀ items, Due marshal message items → ∀ call,
        Answers message call → ∀ callId output, .functionCallOutput callId output ∈ items →
          trimSpace callId = trimSpace call.id) ∧
      InOrder (req.messages.flatMap systemTexts) [out.instructions.getD ""] := by
  unfold chatCompletionsRequestToResponsesRequest at h
  split at h
  · cases h
  split at h
  · cases h
  cases h
  refine ⟨?_, ?_, ?_⟩
  · obtain ⟨groups, hgroups, hinput⟩ := foldl_inputItems marshal hmessages {}
    exact ⟨groups, hgroups, hinput⟩
  · intro message _ items hdue call hanswers callId output hitem
    cases hdue with
    | system | orphan => simp at hitem
    | output _ hid =>
      obtain ⟨rfl, -⟩ : callId = _ ∧ output = _ := by simpa using hitem
      rw [hid, hanswers]
    | turn =>
      have hcalls := mem_of_ne_of_mem InputItem.noConfusion hitem
      split at hcalls
      · simp [callItem] at hcalls
      · simp at hcalls
  · have hparts := foldl_collect (visit_instructionsParts marshal) {} req.messages
    rw [nil_append] at hparts
    have horder := inOrder_instructions req.messages
    rw [← hparts] at horder
    dsimp only
    split
    · exact horder
    next hnone =>
    rw [not_not.mp hnone] at horder
    exact horder

end

def weatherRequest : ChatRequest where
  model := "gpt-5"
  messages :=
    [{ role := "system", content := .text " Be brief." },
     { role := "user", content := .items [.text (some "What is this?"),
         .imageUrl (.object (some "https://x/sky.png") (some "low"))] },
     { role := "assistant"
       toolCalls := some [{ id := "c1", name := " look ", arguments := "\x7b\x7d" }] },
     { role := "tool", toolCallId := "c1", content := .text "A sky." }]

theorem chat_request_reaches_responses_weather :
    (∀ m ∈ weatherRequest.messages, Sendable m) ∧
      ∃ out, chatCompletionsRequestToResponsesRequest (fun _ => "[]") weatherRequest = .ok out ∧
        ∃ groups, List.Forall₂ (Due fun _ => "[]") weatherRequest.messages groups ∧
          out.input = groups.flatten := by
  have hmessages : ∀ m ∈ weatherRequest.messages, Sendable m := by decide
  refine ⟨hmessages, _, rfl, ?_⟩
  exact (chat_request_reaches_responses (fun _ => "[]") rfl hmessages).1

/-- The name of a call is trimmed, and the detail of an image is not sent. -/
theorem call_name_and_image_detail_change :
    (∀ m ∈ weatherRequest.messages, Sendable m) ∧
      ∃ out, chatCompletionsRequestToResponsesRequest (fun _ => "[]") weatherRequest = .ok out ∧
        .functionCall "c1" " look " "\x7b\x7d" ∉ out.input ∧
        out.input[0]? = some (.message "user" (.parts
          [.inputText "What is this?", .inputImage (.url "https://x/sky.png")])) ∧
        out.instructions = some "Be brief." := by
  refine ⟨by decide, _, rfl, ?_, ?_, ?_⟩ <;> decide

end NewApi.OpenAICompat
