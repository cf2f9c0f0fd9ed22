import NewApi.Dto.ChatRequest
import NewApi.Foundation.Fallible

/-!
# Chat requests for Gemini

The messages of `CovertOpenAI2Gemini` in `relay/channel/gemini/relay-gemini.go`.
Images in the markdown of a text become parts of their own.
-/

namespace NewApi.RelayGemini

open Foundation List Dto.Chat

universe u

inductive FunctionResponse (α β : Type u) where
  | null
  | object (contentMap : α)
  | result (contentSlice : β)
  | content (contentStr : String)
  deriving DecidableEq

inductive GeminiPart (α β : Type u) where
  | text (text : String)
  | inlineData (mimeType data : String)
  | functionCall (functionName : String) (arguments : Option α)
  | functionResponse (name : String) (response : FunctionResponse α β)
  deriving DecidableEq

structure GeminiChatContent (α β : Type u) where
  role : String
  parts : List (GeminiPart α β)
  deriving DecidableEq

structure GeminiChatRequest (α β : Type u) where
  contents : List (GeminiChatContent α β)
  systemInstructions : Option String
  deriving DecidableEq

inductive RequestError where
  | invalidArguments (function args : String)
  | decodeFailed (err : String)
  | fileFailed (source : FileSource) (err : String)
  | mimeTypeNotSupported (mimeType : String) (source : FileSource)
  deriving DecidableEq

/-- A text as `json.Unmarshal` reads it into a map or a slice. -/
inductive JsonText (α β : Type u) where
  | null
  | object (contentMap : α)
  | array (contentSlice : β)
  | other
  deriving DecidableEq

structure Services (α β : Type u) where
  getBase64Data : FileSource → Except String (String × String)
  decodeBase64FileData : String → Except String (String × String)
  unmarshal : String → JsonText α β
  emptyMap : α

def geminiSupportedMimeTypes : List String :=
  ["application/pdf", "audio/mpeg", "audio/mp3", "audio/wav", "image/png", "image/jpeg",
    "image/jpg", "image/webp", "image/heic", "image/heif", "text/plain", "video/mov",
    "video/mpeg", "video/mp4", "video/mpg", "video/avi", "video/wmv", "video/mpegps",
    "video/flv"]

def lowerChar (c : Char) : Char :=
  if c.toNat = 0x212A then 'k' else if c.toNat = 0x130 then 'i' else c.toLower

def toLower (s : String) : String := String.ofList (s.toList.map lowerChar)

def imageStart : List Char := ['!', '[']

def imageBracket : List Char := [']', '(', 'd', 'a', 't', 'a', ':']

def dataScheme : List Char := ['d', 'a', 't', 'a', ':']

/-- The indices of an image as the pieces of the text between them: `label` is
`text[startIdx:bracketIdx]`. -/
structure Found where
  textBefore : List Char
  label : List Char
  dataUrl : List Char

def findImage (text : List Char) : Option (Found × List Char) :=
  match cut imageStart text with
  | none => none
  | some (textBefore, fromStart) =>
    match cut imageBracket (imageStart ++ fromStart) with
    | none => none
    | some (label, fromData) =>
      match cut [')'] (dataScheme ++ fromData) with
      | none => none
      | some (dataUrl, rest) => some (⟨textBefore, label, dataUrl⟩, rest)

section

variable {α β : Type u} (svc : Services α β)

def imagePart (dataUrl : List Char) : Except RequestError (GeminiPart α β) :=
  match svc.decodeBase64FileData (String.ofList dataUrl) with
  | .error err => .error (.decodeFailed err)
  | .ok (format, base64String) => .ok (.inlineData format base64String)

def imageLoop : Nat → List Char → Except RequestError (List (GeminiPart α β))
  | 0, _ => .ok []
  | fuel + 1, text =>
    match findImage text with
    | none => .ok []
    | some (found, rest) => do
      let image ← imagePart svc found.dataUrl
      let more ← imageLoop fuel rest
      return (if found.textBefore ≠ [] then [.text (String.ofList found.textBefore)] else []) ++
        image :: more

def textParts (text : String) : Except RequestError (List (GeminiPart α β)) :=
  if text = "" then .ok []
  else if (findImage text.toList).isSome then imageLoop svc text.toList.length text.toList
  else .ok [.text text]

def fileParts (part : MediaContent) : Except RequestError (List (GeminiPart α β)) :=
  match part.toFileSource with
  | none => .ok []
  | some source =>
    match svc.getBase64Data source with
    | .error err => .error (.fileFailed source err)
    | .ok (base64Data, mimeType) =>
      if toLower mimeType ∈ geminiSupportedMimeTypes then .ok [.inlineData mimeType base64Data]
      else .error (.mimeTypeNotSupported mimeType source)

def contentParts (part : MediaContent) : Except RequestError (List (GeminiPart α β)) :=
  match part with
  | .text s => textParts svc s
  | part => fileParts svc part

def callPart (call : ToolCallRequest) : Except RequestError (GeminiPart α β) :=
  if call.arguments = "" then .ok (.functionCall call.name (some svc.emptyMap))
  else
    match svc.unmarshal call.arguments with
    | .object args => .ok (.functionCall call.name (some args))
    | .null => .ok (.functionCall call.name none)
    | _ => .error (.invalidArguments call.name call.arguments)

def functionResponse (contentStr : String) : FunctionResponse α β :=
  match svc.unmarshal contentStr with
  | .null => .null
  | .object contentMap => .object contentMap
  | .array contentSlice => .result contentSlice
  | .other => .content contentStr

/-- The variables of the loop over the messages.  The newest of the ids stands
first. -/
structure Building (α β : Type u) where
  contents : List (GeminiChatContent α β) := []
  toolCallIds : List (String × String) := []
  systemContent : List String := []

def responseName (toolCallIds : List (String × String)) (message : Message) : String :=
  match message.name with
  | some name => name
  | none => (toolCallIds.lookup message.toolCallId).getD ""

def addResponse (part : GeminiPart α β) (contents : List (GeminiChatContent α β)) :
    List (GeminiChatContent α β) :=
  match contents.getLast? with
  | some last =>
    if last.role = "model" then contents ++ [{ role := "user", parts := [part] }]
    else contents.dropLast ++ [{ last with parts := last.parts ++ [part] }]
  | none => contents ++ [{ role := "user", parts := [part] }]

def callIds (message : Message) : List (String × String) :=
  (message.parseToolCalls.map fun call => (call.id, call.name)).reverse

def geminiRole (role : String) : String := if role = "assistant" then "model" else role

def Building.visit (b : Building α β) (message : Message) : Except RequestError (Building α β) :=
  if message.role = "system" ∨ message.role = "developer" then
    .ok { b with systemContent := b.systemContent ++ [message.content.stringContent] }
  else if message.role = "tool" ∨ message.role = "function" then
    let part := GeminiPart.functionResponse (responseName b.toolCallIds message)
      (functionResponse svc message.content.stringContent)
    .ok { b with contents := addResponse part b.contents }
  else do
    let calls ← message.parseToolCalls.mapM (callPart svc)
    let parts ← message.content.parseContent.mapM (contentParts svc)
    let all := calls ++ parts.flatten
    return { b with
      toolCallIds := callIds message ++ b.toolCallIds
      contents :=
        if all ≠ [] then b.contents ++ [{ role := geminiRole message.role, parts := all }]
        else b.contents }

def covertOpenAI2Gemini (messages : List Message) :
    Except RequestError (GeminiChatRequest α β) := do
  let b ← messages.foldlM (Building.visit svc) {}
  return {
    contents := b.contents
    systemInstructions :=
      if b.systemContent ≠ [] then some (joinWith "\n" b.systemContent) else none }

end

/-! ## A text cut at its images -/

inductive Segment where
  | text (text : List Char)
  | image (alt dataUrl : List Char)
  deriving DecidableEq

/-- An image starts at the last `![` before its address. -/
def Found.own (found : Found) : List Char × List Char :=
  (cutLast imageStart found.label).getD ([], found.label)

def segments : Nat → List Char → List Segment
  | 0, text => [.text text]
  | fuel + 1, text =>
    match findImage text with
    | none => [.text text]
    | some (found, rest) =>
      .text (found.textBefore ++ found.own.1) :: .image found.own.2 found.dataUrl ::
        segments fuel rest

structure FoundIn (text : List Char) (found : Found) (rest alt : List Char) : Prop where
  text : text = found.textBefore ++ (found.label ++ ([']', '('] ++ (found.dataUrl ++ ')' :: rest)))
  label : found.label = imageStart ++ alt
  before : ¬ imageStart <:+: found.textBefore
  bracket : ¬ imageBracket <:+: found.label
  scheme : dataScheme <+: found.dataUrl
  close : ')' ∉ found.dataUrl

private theorem exists_alt {label fromStart fromData : List Char}
    (h : imageStart ++ fromStart = label ++ (imageBracket ++ fromData)) :
    ∃ alt, label = imageStart ++ alt := by
  match label with
  | [] | [a] => simp [imageStart, imageBracket] at h
  | a :: b :: alt =>
    obtain ⟨rfl, rfl, -⟩ : '!' = a ∧ '[' = b ∧ _ := by simpa [imageStart] using h
    exact ⟨alt, rfl⟩

private theorem scheme_prefix {dataUrl fromData rest : List Char}
    (h : dataScheme ++ fromData = dataUrl ++ ([')'] ++ rest)) : dataScheme <+: dataUrl := by
  rcases append_eq_append_iff.mp h with ⟨more, hmore, -⟩ | ⟨more, hmore, hover⟩
  · exact ⟨more, hmore.symm⟩
  cases more with
  | nil => exact ⟨[], by simpa using hmore⟩
  | cons =>
    cases hover
    have hmem : ')' ∈ dataScheme := hmore ▸ by simp
    exact absurd hmem (by decide)

variable {text rest alt : List Char} {found : Found}

private theorem foundIn_of_findImage (h : findImage text = some (found, rest)) :
    ∃ alt, FoundIn text found rest alt := by
  unfold findImage at h
  split at h
  · cases h
  next textBefore fromStart hstart =>
  split at h
  · cases h
  next label fromData hbracket =>
  split at h
  · cases h
  next dataUrl rest' hclose =>
  obtain ⟨rfl, rfl⟩ : ⟨textBefore, label, dataUrl⟩ = found ∧ rest' = rest := by
    simpa using h
  have hlabel := cut_eq_append hbracket
  have hurl := cut_eq_append hclose
  obtain ⟨alt, halt⟩ := exists_alt hlabel
  refine ⟨alt, ?_, halt, not_infix_of_cut (by decide) hstart,
    not_infix_of_cut (by decide) hbracket, scheme_prefix hurl, ?_⟩
  · have hsplit : imageBracket ++ fromData = [']', '('] ++ (dataScheme ++ fromData) := rfl
    rw [cut_eq_append hstart, hlabel, hsplit, hurl]
    rfl
  · intro hmem
    obtain ⟨before, after, hparts⟩ := append_of_mem hmem
    exact not_infix_of_cut (by decide) hclose ⟨before, after, by simpa using hparts.symm⟩

section

variable (h : FoundIn text found rest alt)
include h

theorem FoundIn.own :
    found.label = found.own.1 ++ (imageStart ++ found.own.2) ∧ ¬ imageStart <:+: found.own.2 := by
  have hpart : imageStart <:+: found.label := ⟨[], alt, by rw [h.label]; rfl⟩
  cases hcut : cutLast imageStart found.label with
  | none => exact absurd hpart ((cutLast_eq_none_iff (by decide)).mp hcut)
  | some pair =>
    obtain ⟨lead, own⟩ := pair
    have hown : found.own = (lead, own) := by rw [Found.own, hcut]; rfl
    rw [hown]
    exact ⟨cutLast_eq_append hcut, not_infix_of_cutLast (by decide) hcut⟩

theorem FoundIn.exists_lead (hlead : found.own.1 ≠ []) :
    ∃ more, found.own.1 = imageStart ++ more := by
  obtain ⟨hlabel, -⟩ := h.own
  rw [h.label] at hlabel
  match hown : found.own.1 with
  | [] => exact absurd hown hlead
  | [a] => simp [hown, imageStart] at hlabel
  | a :: b :: more =>
    obtain ⟨rfl, rfl, -⟩ : '!' = a ∧ '[' = b ∧ _ := by simpa [hown, imageStart] using hlabel
    exact ⟨more, rfl⟩

theorem FoundIn.lead_iff : imageStart <:+: found.textBefore ++ found.own.1 ↔ found.own.1 ≠ [] := by
  constructor
  · intro hpart hlead
    rw [hlead, append_nil] at hpart
    exact h.before hpart
  · intro hlead
    obtain ⟨more, hmore⟩ := h.exists_lead hlead
    exact ⟨found.textBefore, more, by rw [hmore, append_assoc]⟩

theorem FoundIn.rest_lt : rest.length < text.length := by
  rw [h.text]
  simp
  omega

end

def textSegments (text : String) : List Segment := segments text.toList.length text.toList

def Segment.isImage : Segment → Bool
  | .text _ => false
  | .image _ _ => true

/-- A text with images ends with one, and no start of an image stands outside them. -/
def ImagesOnly (pieces : List Segment) : Prop :=
  (∀ s, .text s ∈ pieces → ¬ imageStart <:+: s) ∧ pieces.getLast? = some (.text [])

def CleanText (text : String) : Prop :=
  (∃ piece ∈ textSegments text, piece.isImage) → ImagesOnly (textSegments text)

section

variable {α β : Type u}

def partChars : GeminiPart α β → List Char
  | .text s => s.toList
  | _ => []

def textWeight (parts : List (GeminiPart α β)) : Nat := (parts.flatMap partChars).length

@[simp] theorem textWeight_append (first second : List (GeminiPart α β)) :
    textWeight (first ++ second) = textWeight first + textWeight second := by
  simp [textWeight]

structure LosesUnless (clean : Prop) (due given : List (GeminiPart α β)) : Prop where
  le : textWeight given ≤ textWeight due
  eq : textWeight given = textWeight due → clean
  same : clean → given = due

open LosesUnless

variable {clean clean' : Prop} {b b' : Building α β}
  {due given : List (GeminiPart α β)} {message : Message} {messages : List Message}
  {items : List (String × GeminiPart α β)} {calls : List (String × String)}

theorem LosesUnless.append {due' given' : List (GeminiPart α β)} (h : LosesUnless clean due given)
    (h' : LosesUnless clean' due' given') :
    LosesUnless (clean ∧ clean') (due ++ due') (given ++ given') := by
  have hle := h.le
  have hle' := h'.le
  refine ⟨?_, ?_, ?_⟩
  · rw [textWeight_append, textWeight_append]
    omega
  · rw [textWeight_append, textWeight_append]
    intro heq
    exact ⟨h.eq (by omega), h'.eq (by omega)⟩
  · rintro ⟨hclean, hclean'⟩
    rw [h.same hclean, h'.same hclean']

theorem LosesUnless.refl (parts : List (GeminiPart α β)) : LosesUnless True parts parts :=
  ⟨Nat.le_refl _, fun _ => trivial, fun _ => rfl⟩

theorem LosesUnless.congr (h : LosesUnless clean due given) (hiff : clean' ↔ clean) :
    LosesUnless clean' due given :=
  ⟨h.le, fun heq => hiff.mpr (h.eq heq), fun hclean => h.same (hiff.mp hclean)⟩

variable (svc : Services α β)

def Segment.parts : Segment → List (GeminiPart α β)
  | .text s => if s ≠ [] then [.text (String.ofList s)] else []
  | .image _ dataUrl => (imagePart svc dataUrl).toOption.toList

theorem textWeight_segment (s : List Char) :
    textWeight ((Segment.text s).parts svc) = s.length := by
  by_cases hs : s = [] <;> simp [Segment.parts, hs, textWeight, partChars]

theorem imagesOnly_cons (lead alt dataUrl : List Char) (pieces : List Segment) (hne : pieces ≠ []) :
    ImagesOnly (.text lead :: .image alt dataUrl :: pieces) ↔
      ¬ imageStart <:+: lead ∧ ImagesOnly pieces := by
  obtain ⟨piece, more, rfl⟩ := exists_cons_of_ne_nil hne
  simp only [ImagesOnly, getLast?_cons_cons]
  constructor
  · rintro ⟨htext, hlast⟩
    exact ⟨htext lead mem_cons_self,
      fun s hs => htext s (mem_cons_of_mem _ (mem_cons_of_mem _ hs)), hlast⟩
  · rintro ⟨hlead, htext, hlast⟩
    refine ⟨fun s hs => ?_, hlast⟩
    rcases mem_cons.mp hs with hsame | hs
    · obtain rfl : s = lead := by simpa using hsame
      exact hlead
    · rcases mem_cons.mp hs with hfalse | hs
      · cases hfalse
      · exact htext s hs

private theorem segments_ne_nil (fuel : Nat) (text : List Char) : segments fuel text ≠ [] := by
  cases fuel with
  | zero => simp [segments]
  | succ =>
    rw [segments]
    split <;> simp

theorem losesUnless_text (lead more : List Char) :
    LosesUnless (more = []) ((Segment.text (lead ++ more)).parts svc)
      ((Segment.text lead).parts svc) := by
  refine ⟨?_, ?_, ?_⟩
  · rw [textWeight_segment, textWeight_segment, length_append]
    omega
  · rw [textWeight_segment, textWeight_segment, length_append]
    intro heq
    exact eq_nil_of_length_eq_zero (by omega)
  · rintro rfl
    rw [append_nil]

private theorem imagesOnly_singleton (text : List Char) : ImagesOnly [.text text] ↔ text = [] := by
  constructor
  · rintro ⟨-, hlast⟩
    simpa using hlast
  · rintro rfl
    exact ⟨by simp [imageStart], rfl⟩

theorem losesUnless_rest (text : List Char) :
    LosesUnless (ImagesOnly [.text text]) (List.flatMap (Segment.parts svc) [.text text]) [] := by
  have h := losesUnless_text svc [] text
  rw [nil_append] at h
  rw [flatMap_singleton]
  exact h.congr (imagesOnly_singleton text)

variable {parts : List (GeminiPart α β)}

private theorem imageLoop_spec {fuel : Nat} (hfuel : text.length ≤ fuel)
    (h : imageLoop svc fuel text = .ok parts) :
    LosesUnless (ImagesOnly (segments fuel text))
      ((segments fuel text).flatMap (Segment.parts svc)) parts := by
  induction fuel generalizing text parts with
  | zero =>
    cases h
    exact losesUnless_rest svc text
  | succ fuel ih =>
    rw [imageLoop] at h
    rw [segments]
    split at h
    · cases h
      exact losesUnless_rest svc text
    next found rest hfound =>
    obtain ⟨image, himage, h⟩ := bind_eq_ok.mp h
    obtain ⟨more, hmore, h⟩ := bind_eq_ok.mp h
    obtain rfl := pure_eq_ok.mp h
    obtain ⟨alt, hin⟩ := foundIn_of_findImage hfound
    have hrest : rest.length ≤ fuel := by
      have hlt := hin.rest_lt
      omega
    have hfile : (Segment.image found.own.2 found.dataUrl).parts svc = [image] := by
      rw [Segment.parts, himage]
      rfl
    have hall := (losesUnless_text svc found.textBefore found.own.1).append
      ((refl [image]).append (ih hrest hmore))
    rw [flatMap_cons, flatMap_cons, hfile]
    refine hall.congr ?_
    rw [imagesOnly_cons _ _ _ _ (segments_ne_nil fuel rest), hin.lead_iff, not_not, true_and]

private theorem textParts_spec {text : String} (h : textParts svc text = .ok parts) :
    LosesUnless (CleanText text) ((textSegments text).flatMap (Segment.parts svc)) parts := by
  have hplain : findImage text.toList = none → textSegments text = [.text text.toList] := by
    intro hnone
    unfold textSegments
    cases text.toList.length with
    | zero => rfl
    | succ => rw [segments, hnone]
  have hclean : textSegments text = [.text text.toList] → CleanText text := by
    intro hsegments
    rintro ⟨piece, hpiece, himage⟩
    rw [hsegments, mem_singleton] at hpiece
    rw [hpiece] at himage
    cases himage
  unfold textParts at h
  split at h
  · next hempty =>
    cases h
    subst hempty
    exact (refl []).congr (iff_true_intro (hclean (hplain rfl)))
  next hne =>
  split at h
  · next hsome =>
    have hloop := imageLoop_spec svc (Nat.le_refl _) h
    refine hloop.congr ⟨fun hclean => hclean ?_, fun honly _ => honly⟩
    obtain ⟨⟨found, rest⟩, hfound⟩ := Option.isSome_iff_exists.mp hsome
    refine ⟨.image found.own.2 found.dataUrl, ?_, rfl⟩
    unfold textSegments
    cases hlength : text.toList.length with
    | zero =>
      have hnil := eq_nil_of_length_eq_zero hlength
      exact absurd (String.toList_eq_nil_iff.mp hnil) hne
    | succ => simp [segments, hfound]
  · next hnone =>
    cases h
    have hsegments := hplain (Option.not_isSome_iff_eq_none.mp hnone)
    rw [hsegments]
    refine congr ?_ (iff_true_intro (hclean hsegments))
    have hne' : text.toList ≠ [] := fun hnil => hne (String.toList_eq_nil_iff.mp hnil)
    simpa [Segment.parts, hne'] using refl [GeminiPart.text text]

/-! ## What is due and what is given -/

def contentDue (part : MediaContent) : List (GeminiPart α β) :=
  match part with
  | .text s => (textSegments s).flatMap (Segment.parts svc)
  | part =>
    match part.toFileSource.map svc.getBase64Data with
    | some (.ok (base64Data, mimeType)) => [.inlineData mimeType base64Data]
    | _ => []

def argumentsOf (arguments : String) : Option α :=
  if arguments = "" then some svc.emptyMap
  else
    match svc.unmarshal arguments with
    | .object args => some args
    | _ => none

def messageDue (message : Message) : List (GeminiPart α β) :=
  (message.parseToolCalls.map fun call =>
      .functionCall call.name (argumentsOf svc call.arguments)) ++
    message.content.parseContent.flatMap (contentDue svc)

def CleanMessage (message : Message) : Prop :=
  ∀ s, .text s ∈ message.content.parseContent → CleanText s

private theorem contentParts_spec {part : MediaContent} (h : contentParts svc part = .ok parts) :
    LosesUnless (∀ s, part = .text s → CleanText s) (contentDue svc part) parts := by
  have hfile : ∀ part : MediaContent, (∀ s, part ≠ .text s) → fileParts svc part = .ok parts →
      contentDue svc part = parts := by
    intro part htext h
    unfold fileParts at h
    unfold contentDue
    split
    · next s => exact absurd rfl (htext s)
    split at h
    · next hnone =>
      cases h
      simp [hnone]
    next source hsource =>
    split at h
    · cases h
    next base64Data mimeType hdata =>
    split at h
    · cases h
      simp [hsource, hdata]
    · cases h
  have hother : ∀ part : MediaContent, (∀ s, part ≠ .text s) → fileParts svc part = .ok parts →
      LosesUnless (∀ s, part = .text s → CleanText s) (contentDue svc part) parts := by
    intro part htext h
    rw [hfile part htext h]
    exact (refl parts).congr (iff_true_intro fun s hs => absurd hs (htext s))
  cases part with
  | text => exact (textParts_spec svc h).congr (by simp)
  | _ => exact hother _ (fun _ => MediaContent.noConfusion) h

theorem mapM_contentParts_spec {content : List MediaContent} {parts : List (List (GeminiPart α β))}
    (h : content.mapM (contentParts svc) = .ok parts) :
    LosesUnless (∀ s, .text s ∈ content → CleanText s) (content.flatMap (contentDue svc))
      parts.flatten := by
  have hparts := forall₂_of_mapM h
  clear h
  induction hparts with
  | nil => exact (refl []).congr (by simp)
  | @cons part given content parts hpart _ ih =>
    rw [flatMap_cons, flatten_cons]
    refine ((contentParts_spec svc hpart).append ih).congr ?_
    simp only [mem_cons]
    constructor
    · intro hall
      exact ⟨fun s hs => hall s (.inl hs.symm), fun s hs => hall s (.inr hs)⟩
    · rintro ⟨hfirst, hrest⟩ s (hs | hs)
      · exact hfirst s hs.symm
      · exact hrest s hs

private theorem mapM_callPart {calls : List ToolCallRequest}
    (h : calls.mapM (callPart svc) = .ok parts) :
    calls.map (fun call => .functionCall call.name (argumentsOf svc call.arguments)) = parts := by
  have hparts := forall₂_of_mapM h
  clear h
  induction hparts with
  | nil => rfl
  | @cons call part calls parts hcall _ ih =>
    have hpart : .functionCall call.name (argumentsOf svc call.arguments) = part := by
      unfold callPart at hcall
      unfold argumentsOf
      split at hcall
      · next hempty =>
        rw [if_pos hempty]
        exact Except.ok.inj hcall
      next hne =>
      rw [if_neg hne]
      split at hcall
      · next args hargs =>
        rw [hargs]
        exact Except.ok.inj hcall
      · next hnull =>
        rw [hnull]
        exact Except.ok.inj hcall
      · cases hcall
    rw [map_cons, hpart, ih]

inductive DueItem (α β : Type u) where
  | part (role : String) (part : GeminiPart α β)
  | answer (name : Option String) (content : String)

def Carries (content : String) : FunctionResponse α β → Prop
  | .null => False
  | .object contentMap => svc.unmarshal content = .object contentMap
  | .result contentSlice => svc.unmarshal content = .array contentSlice
  | .content contentStr => contentStr = content

inductive Matches : DueItem α β → String × GeminiPart α β → Prop where
  | part (role : String) (part : GeminiPart α β) : Matches (.part role part) (role, part)
  | answer {name : Option String} {given role content : String} {response : FunctionResponse α β}
      (hname : ∀ n ∈ name, n = given) (hcontent : Carries svc content response) :
      Matches (.answer name content) (role, .functionResponse given response)

def readParts (contents : List (GeminiChatContent α β)) : List (String × GeminiPart α β) :=
  contents.flatMap fun content => content.parts.map fun part => (content.role, part)

def IsSystem (message : Message) : Prop := message.role = "system" ∨ message.role = "developer"

def IsTool (message : Message) : Prop := message.role = "tool" ∨ message.role = "function"

instance (message : Message) : Decidable (IsSystem message) := inferInstanceAs (Decidable (_ ∨ _))

instance (message : Message) : Decidable (IsTool message) := inferInstanceAs (Decidable (_ ∨ _))

def callsAfter (calls : List (String × String)) (message : Message) : List (String × String) :=
  if IsSystem message ∨ IsTool message then calls else callIds message ++ calls

def dueOf (calls : List (String × String)) (message : Message) : List (DueItem α β) :=
  if IsSystem message then []
  else if IsTool message then
    [.answer (calls.lookup message.toolCallId) message.content.stringContent]
  else (messageDue svc message).map (.part (geminiRole message.role))

def dueFrom (calls : List (String × String)) : List Message → List (DueItem α β)
  | [] => []
  | message :: rest => dueOf svc calls message ++ dueFrom (callsAfter calls message) rest

/-- Every text and image, every call and every answer is read in the contents, in order. -/
def Whole (messages : List Message) (out : GeminiChatRequest α β) : Prop :=
  List.Forall₂ (Matches svc) (dueFrom svc [] messages) (readParts out.contents)

def Answerable (calls : List (String × String)) (message : Message) : Prop :=
  svc.unmarshal message.content.stringContent ≠ .null ∧
    ∀ name ∈ calls.lookup message.toolCallId, ∀ own ∈ message.name, own = name

def CarriedFrom (calls : List (String × String)) : List Message → Prop
  | [] => True
  | message :: rest =>
    (¬ IsSystem message →
      if IsTool message then Answerable svc calls message else CleanMessage message) ∧
      CarriedFrom (callsAfter calls message) rest

/-! ## The loop over the messages -/

def Adds (calls : List (String × String)) (message : Message)
    (items : List (String × GeminiPart α β)) : Prop :=
  if IsSystem message then items = []
  else if IsTool message then
    ∃ role, items = [(role, .functionResponse (responseName calls message)
      (functionResponse svc message.content.stringContent))]
  else
    ∃ parts, LosesUnless (CleanMessage message) (messageDue svc message) parts ∧
      items = parts.map fun part => (geminiRole message.role, part)

inductive Run : List (String × String) → List Message → List (String × GeminiPart α β) → Prop where
  | nil (calls : List (String × String)) : Run calls [] []
  | cons {calls : List (String × String)} {message : Message} {rest : List Message}
      {items more : List (String × GeminiPart α β)} (hadds : Adds svc calls message items)
      (hrest : Run (callsAfter calls message) rest more) :
      Run calls (message :: rest) (items ++ more)

theorem readParts_addResponse (part : GeminiPart α β) (contents : List (GeminiChatContent α β)) :
    ∃ role, readParts (addResponse part contents) = readParts contents ++ [(role, part)] := by
  unfold addResponse
  split
  · next last hlast =>
    obtain ⟨before, rfl⟩ := getLast?_eq_some_iff.mp hlast
    split
    · exact ⟨"user", by simp [readParts]⟩
    · exact ⟨last.role, by simp [readParts]⟩
  · exact ⟨"user", by simp [readParts]⟩

private theorem visit_adds (h : b.visit svc message = .ok b') :
    b'.toolCallIds = callsAfter b.toolCallIds message ∧
      ∃ items, Adds svc b.toolCallIds message items ∧
        readParts b'.contents = readParts b.contents ++ items := by
  unfold Building.visit at h
  split at h
  · next hsystem =>
    cases h
    have hsystem' : IsSystem message := hsystem
    refine ⟨?_, [], ?_, (append_nil _).symm⟩
    · simp [callsAfter, hsystem']
    · simp [Adds, hsystem']
  · next hsystem =>
    have hsystem' : ¬ IsSystem message := hsystem
    split at h
    · next htool =>
      cases h
      have htool' : IsTool message := htool
      obtain ⟨role, hread⟩ := readParts_addResponse
        (.functionResponse (responseName b.toolCallIds message)
          (functionResponse svc message.content.stringContent)) b.contents
      refine ⟨?_, _, ?_, hread⟩
      · simp [callsAfter, htool']
      · simp [Adds, hsystem', htool']
    · next htool =>
      have htool' : ¬ IsTool message := htool
      obtain ⟨calls, hcalls, h⟩ := bind_eq_ok.mp h
      obtain ⟨parts, hparts, h⟩ := bind_eq_ok.mp h
      obtain rfl := pure_eq_ok.mp h
      have hdue : LosesUnless (CleanMessage message) (messageDue svc message)
          (calls ++ parts.flatten) := by
        rw [messageDue, mapM_callPart svc hcalls]
        refine ((refl calls).append (mapM_contentParts_spec svc hparts)).congr ?_
        rw [true_and]
        rfl
      refine ⟨?_, (calls ++ parts.flatten).map fun part => (geminiRole message.role, part), ?_, ?_⟩
      · simp [callsAfter, hsystem', htool']
      · rw [Adds, if_neg hsystem', if_neg htool']
        exact ⟨_, hdue, rfl⟩
      · dsimp only
        split
        · simp [readParts]
        · next hempty => rw [not_not.mp hempty, map_nil, append_nil]

private theorem run_of_foldlM (h : messages.foldlM (Building.visit svc) b = .ok b') :
    ∃ items, Run svc b.toolCallIds messages items ∧
      readParts b'.contents = readParts b.contents ++ items := by
  induction messages generalizing b with
  | nil =>
    rw [foldlM_nil, pure_eq_ok] at h
    exact ⟨[], .nil _, by rw [h, append_nil]⟩
  | cons message messages ih =>
    rw [foldlM_cons, bind_eq_ok] at h
    obtain ⟨d, hd, hrest⟩ := h
    obtain ⟨hids, items, hadds, hread⟩ := visit_adds svc hd
    obtain ⟨more, hrun, hread'⟩ := ih hrest
    rw [hids] at hrun
    exact ⟨items ++ more, .cons hadds hrun, by rw [hread', hread, append_assoc]⟩

/-! ## Requests that reach Gemini whole -/

def dueChars : DueItem α β → List Char
  | .part _ part => partChars part
  | .answer _ _ => []

def dueWeight (due : List (DueItem α β)) : Nat := (due.flatMap dueChars).length

def itemWeight (items : List (String × GeminiPart α β)) : Nat := textWeight (items.map Prod.snd)

@[simp] theorem dueWeight_append (first second : List (DueItem α β)) :
    dueWeight (first ++ second) = dueWeight first + dueWeight second := by
  simp [dueWeight]

@[simp] theorem itemWeight_append (first second : List (String × GeminiPart α β)) :
    itemWeight (first ++ second) = itemWeight first + itemWeight second := by
  simp [itemWeight]

theorem weight_of_matches {due : List (DueItem α β)} (h : List.Forall₂ (Matches svc) due items) :
    dueWeight due = itemWeight items := by
  induction h with
  | nil => rfl
  | @cons first item due items hfirst _ ih =>
    have hchars : dueChars first = partChars item.2 := by
      cases hfirst with
      | part | answer => rfl
    simp only [dueWeight, itemWeight, textWeight, flatMap_cons, map_cons,
      length_append, hchars] at ih ⊢
    rw [ih]

private theorem dueWeight_map (role : String) (parts : List (GeminiPart α β)) :
    dueWeight (parts.map (.part role)) = textWeight parts := by
  simp [dueWeight, textWeight, flatMap_map, dueChars]

private theorem itemWeight_map (role : String) (parts : List (GeminiPart α β)) :
    itemWeight (parts.map fun part => (role, part)) = textWeight parts := by
  simp [itemWeight, Function.comp_def]

private theorem weight_adds (h : Adds svc calls message items) :
    itemWeight items ≤ dueWeight (dueOf svc calls message) ∧
      (itemWeight items = dueWeight (dueOf svc calls message) →
        ¬ IsSystem message → ¬ IsTool message → CleanMessage message) := by
  unfold Adds at h
  unfold dueOf
  split at h
  · next hsystem =>
    subst h
    exact ⟨Nat.zero_le _, fun _ hnot => absurd hsystem hnot⟩
  split at h
  · next htool =>
    obtain ⟨role, rfl⟩ := h
    exact ⟨Nat.zero_le _, fun _ _ hnot => absurd htool hnot⟩
  · next hsystem htool =>
    obtain ⟨parts, hparts, rfl⟩ := h
    rw [if_neg hsystem, if_neg htool, dueWeight_map, itemWeight_map]
    exact ⟨hparts.le, fun heq _ _ => hparts.eq heq⟩

private theorem weight_run (h : Run svc calls messages items) :
    itemWeight items ≤ dueWeight (dueFrom svc calls messages) ∧
      (itemWeight items = dueWeight (dueFrom svc calls messages) →
        ∀ m ∈ messages, ¬ IsSystem m → ¬ IsTool m → CleanMessage m) := by
  induction h with
  | nil => exact ⟨Nat.le_refl _, by simp⟩
  | @cons calls message rest items more hadds _ ih =>
    obtain ⟨hle, heq⟩ := weight_adds svc hadds
    obtain ⟨hrest, hrest'⟩ := ih
    rw [dueFrom, dueWeight_append, itemWeight_append]
    refine ⟨by omega, fun hsum m hm => ?_⟩
    rcases mem_cons.mp hm with rfl | hm
    · exact heq (by omega)
    · exact hrest' (by omega) m hm

private theorem carries_functionResponse (content : String) :
    Carries svc content (functionResponse svc content) ↔ svc.unmarshal content ≠ .null := by
  unfold functionResponse
  split
  · next h => simp [Carries, h]
  · next contentMap h => simp [Carries, h]
  · next contentSlice h => simp [Carries, h]
  · next h => simp [Carries, h]

private theorem responseName_iff (calls : List (String × String)) (message : Message) :
    (∀ n ∈ calls.lookup message.toolCallId, n = responseName calls message) ↔
      ∀ name ∈ calls.lookup message.toolCallId, ∀ own ∈ message.name, own = name := by
  unfold responseName
  cases message.name with
  | none =>
    cases calls.lookup message.toolCallId with
    | none | some => simp
  | some =>
    cases calls.lookup message.toolCallId with
    | none => simp
    | some => simp [eq_comm]

private theorem matches_adds (h : Adds svc calls message items)
    (hclean : ¬ IsSystem message → ¬ IsTool message → CleanMessage message) :
    (dueOf svc calls message).length = items.length ∧
      (List.Forall₂ (Matches svc) (dueOf svc calls message) items ↔
        (¬ IsSystem message →
          if IsTool message then Answerable svc calls message else CleanMessage message)) := by
  unfold Adds at h
  unfold dueOf
  split at h
  · next hsystem =>
    subst h
    simp [hsystem]
  next hsystem =>
  split at h
  · next htool =>
    obtain ⟨role, rfl⟩ := h
    rw [if_neg hsystem, if_pos htool]
    refine ⟨rfl, ?_⟩
    simp only [hsystem, htool, not_false_eq_true, true_imp_iff, if_true, forall₂_cons,
      List.Forall₂.nil, and_true]
    rw [Answerable, ← carries_functionResponse, ← responseName_iff]
    constructor
    · intro hmatch
      cases hmatch with
      | answer hname hcontent => exact ⟨hcontent, hname⟩
    · rintro ⟨hcontent, hname⟩
      exact .answer hname hcontent
  · next htool =>
    obtain ⟨parts, hparts, rfl⟩ := h
    have hclean' := hclean hsystem htool
    obtain rfl := hparts.same hclean'
    rw [if_neg hsystem, if_neg htool]
    refine ⟨by simp, ?_⟩
    simp only [hsystem, htool, not_false_eq_true, true_imp_iff, if_false]
    refine iff_of_true ?_ hclean'
    rw [forall₂_map_left_iff, forall₂_map_right_iff, forall₂_same]
    exact fun part _ => .part _ part

theorem forall₂_append_iff {δ γ : Type*} {R : δ → γ → Prop} {xs xs' : List δ} {ys ys' : List γ}
    (h : xs.length = ys.length) :
    List.Forall₂ R (xs ++ xs') (ys ++ ys') ↔ List.Forall₂ R xs ys ∧ List.Forall₂ R xs' ys' := by
  constructor
  · intro hall
    have htake := forall₂_take_append _ _ _ hall
    have hdrop := forall₂_drop_append _ _ _ hall
    rw [← h, take_left] at htake
    rw [← h, drop_left] at hdrop
    exact ⟨htake, hdrop⟩
  · rintro ⟨hfirst, hsecond⟩
    exact rel_append hfirst hsecond

theorem matches_run (h : Run svc calls messages items)
    (hclean : ∀ m ∈ messages, ¬ IsSystem m → ¬ IsTool m → CleanMessage m) :
    List.Forall₂ (Matches svc) (dueFrom svc calls messages) items ↔
      CarriedFrom svc calls messages := by
  induction h with
  | nil => simp [dueFrom, CarriedFrom]
  | @cons calls message rest items more hadds _ ih =>
    obtain ⟨hlength, hmatch⟩ := matches_adds svc hadds (hclean message mem_cons_self)
    rw [dueFrom, CarriedFrom, forall₂_append_iff hlength, hmatch,
      ih fun m hm => hclean m (mem_cons_of_mem message hm)]

private theorem clean_of_carriedFrom (h : CarriedFrom svc calls messages) :
    ∀ m ∈ messages, ¬ IsSystem m → ¬ IsTool m → CleanMessage m := by
  induction messages generalizing calls with
  | nil => simp
  | cons message messages ih =>
    obtain ⟨hmessage, hrest⟩ := h
    intro m hm hsystem htool
    rcases mem_cons.mp hm with rfl | hm
    · have hclean := hmessage hsystem
      rwa [if_neg htool] at hclean
    · exact ih hrest m hm hsystem htool

/-- The request reaches Gemini whole exactly if every text with images ends with
one and has no start of an image outside them, no tool message is `null`, and a
tool message that answers a call and has a name has the name of the call. -/
theorem gemini_request_whole_iff {messages : List Message} {out : GeminiChatRequest α β}
    (h : covertOpenAI2Gemini svc messages = .ok out) :
    Whole svc messages out ↔ CarriedFrom svc [] messages := by
  obtain ⟨b, hb, hreturn⟩ := bind_eq_ok.mp h
  obtain rfl := pure_eq_ok.mp hreturn
  obtain ⟨items, hrun, hread⟩ := run_of_foldlM svc hb
  have hitems : readParts b.contents = items := hread
  unfold Whole
  rw [hitems]
  constructor
  · intro hmatches
    have hclean := (weight_run svc hrun).2 (weight_of_matches svc hmatches).symm
    exact (matches_run svc hrun hclean).mp hmatches
  · intro hcarried
    exact (matches_run svc hrun (clean_of_carriedFrom svc hcarried)).mpr hcarried

end

def pngServices : Services String String where
  getBase64Data _ := .error "no files"
  decodeBase64FileData _ := .ok ("image/png", "AA==")
  unmarshal s := if s = "null" then .null else if s = "\x7b\x7d" then .object s else .other
  emptyMap := "\x7b\x7d"

def skyMessages : List Message :=
  [{ role := "user", content := .text "What is ![sky](data:image/png;base64,AA==)" },
   { role := "assistant",
     toolCalls := some [{ id := "c1", name := "look", arguments := "\x7b\x7d" }] },
   { role := "tool", toolCallId := "c1", content := .text "A sky." }]

theorem gemini_request_whole_sky :
    ∃ out, covertOpenAI2Gemini pngServices skyMessages = .ok out ∧
      Whole pngServices skyMessages out := by
  have hsegments : textSegments "What is ![sky](data:image/png;base64,AA==)" =
      [.text "What is ".toList, .image "sky".toList "data:image/png;base64,AA==".toList,
        .text []] := by decide
  have hclean : CleanText "What is ![sky](data:image/png;base64,AA==)" := by
    intro _
    rw [hsegments]
    refine ⟨fun s hs => ?_, rfl⟩
    obtain rfl | rfl : s = "What is ".toList ∨ s = [] := by simpa using hs
    · decide
    · decide
  have hcarried : CarriedFrom pngServices [] skyMessages := by
    refine ⟨fun _ s hs => ?_, fun _ s hs => ?_, fun _ => ⟨by decide, by decide⟩, trivial⟩
    · obtain rfl : s = "What is ![sky](data:image/png;base64,AA==)" := by
        simpa [Content.parseContent] using hs
      exact hclean
    · simp [Content.parseContent] at hs
  exact ⟨_, rfl, (gemini_request_whole_iff pngServices rfl).mpr hcarried⟩

/-- The text after the last image is lost. -/
theorem text_after_image_lost :
    covertOpenAI2Gemini pngServices
        [{ role := "user", content := .text "![sky](data:image/png;base64,AA==) What is this?" }] =
      .ok
        { contents := [{ role := "user", parts := [.inlineData "image/png" "AA=="] }]
          systemInstructions := none } ∧
      ¬ Whole pngServices
        [{ role := "user", content := .text "![sky](data:image/png;base64,AA==) What is this?" }]
        { contents := [{ role := "user", parts := [.inlineData "image/png" "AA=="] }]
          systemInstructions := none } := by
  refine ⟨by decide, fun h => ?_⟩
  have hweight := weight_of_matches pngServices h
  revert hweight
  decide

end NewApi.RelayGemini
