import NewApi.Dto.ChatRequest
import NewApi.Foundation.Fallible
import NewApi.Foundation.Joins

/-!
# Chat requests for Claude

The messages of `RequestOpenAI2ClaudeMessage` in
`relay/channel/claude/relay-claude.go`.  A first pass joins neighbouring
messages of one role, a second pass makes the messages and the system blocks.
-/

namespace NewApi.RelayClaude

open Foundation List Dto.Chat MediaContent

universe u

inductive RequestBlock (α : Type u) where
  | text (text : String)
  | media (type mediaType data : String)
  | toolUse (id name : String) (input : α)
  | toolResult (toolUseId : String) (content : Content)
  deriving DecidableEq

inductive ClaudeContent (α : Type u) where
  | text (text : String)
  | blocks (blocks : List (RequestBlock α))
  deriving DecidableEq

open ClaudeContent

structure ClaudeMessage (α : Type u) where
  role : String
  content : ClaudeContent α
  deriving DecidableEq

open ClaudeMessage

structure ClaudeRequest (α : Type u) where
  system : List (RequestBlock α)
  messages : List (ClaudeMessage α)
  deriving DecidableEq

def isStringContent : Content → Bool
  | .text _ => true
  | _ => false

def bare (message : Message) : Message where
  role := message.role
  content := message.content
  toolCallId := if message.role = "tool" then message.toolCallId else ""
  toolCalls := if message.role = "assistant" then message.toolCalls else none

def fillContent : Content → Content
  | .null => .text "..."
  | .text s => if s = "" then .text "..." else .text s
  | content => content

def fill (message : Message) : Message :=
  { message with content := fillContent message.content }

def joinedText (last message : Message) : String :=
  trimChar '"' (last.content.stringContent ++ " " ++ message.content.stringContent)

def joinMessages (last message : Message) : Message :=
  fill { bare message with content := .text (joinedText last message) }

structure Formatted where
  formatMessages : List Message := []
  lastMessage : Message := { role := "tool" }

open Formatted

def Formatted.visit (f : Formatted) (message : Message) : Formatted :=
  if f.lastMessage.role = message.role ∧ f.lastMessage.role ≠ "tool" ∧
      isStringContent f.lastMessage.content ∧ isStringContent message.content then
    let fmtMessage := joinMessages f.lastMessage message
    { formatMessages := f.formatMessages.dropLast ++ [fmtMessage], lastMessage := fmtMessage }
  else
    let fmtMessage := fill (bare message)
    { formatMessages := f.formatMessages ++ [fmtMessage], lastMessage := fmtMessage }

def formatMessages (messages : List Message) : List Message :=
  (messages.foldl visit {}).formatMessages

section

variable {α : Type u}

def systemBlocks : Content → List (RequestBlock α)
  | .text s => if s ≠ "" then [.text s] else []
  | content =>
    ((content.parseContent.filterMap text?).filter fun s => s ≠ "").map .text

def ClaudeContent.toBlocks : ClaudeContent α → List (RequestBlock α)
  | .text s => [.text s]
  | .blocks list => list

def addToolResult (message : Message) (messages : List (ClaudeMessage α)) :
    List (ClaudeMessage α) :=
  let result := RequestBlock.toolResult message.toolCallId message.content
  match messages.getLast? with
  | some last =>
    if last.role = "user" then
      messages.dropLast ++ [{ last with content := .blocks (last.content.toBlocks ++ [result]) }]
    else messages ++ [{ role := "user", content := .blocks [result] }]
  | none => messages ++ [{ role := "user", content := .blocks [result] }]

variable (getBase64Data : FileSource → Except String (String × String))
variable (unmarshal : String → Option α)

def mediaBlock (part : MediaContent) : Except String (List (RequestBlock α)) :=
  match part with
  | .text s => .ok (if s ≠ "" then [.text s] else [])
  | part =>
    match part.toFileSource with
    | none => .ok []
    | some source =>
      match getBase64Data source with
      | .error err => .error ("get file data failed: " ++ err)
      | .ok (base64Data, mimeType) =>
        .ok [.media (if hasPrefix mimeType "application/pdf" then "document" else "image")
          mimeType base64Data]

def toolUse (toolCall : ToolCallRequest) : List (RequestBlock α) :=
  match unmarshal toolCall.arguments with
  | some inputObj => [.toolUse toolCall.id toolCall.name inputObj]
  | none => []

def claudeContent (message : Message) : Except String (ClaudeContent α) :=
  match message.content, message.toolCalls with
  | .text s, none => .ok (.text (if s = "" then "..." else s))
  | content, _ => do
    let media ← content.parseContent.mapM (mediaBlock getBase64Data)
    return .blocks (media.flatten ++ message.parseToolCalls.flatMap (toolUse unmarshal))

structure Converted (α : Type u) where
  claudeMessages : List (ClaudeMessage α) := []
  isFirstMessage : Bool := true
  systemMessages : List (RequestBlock α) := []

def Converted.opened (c : Converted α) (message : Message) : List (ClaudeMessage α) :=
  if c.isFirstMessage ∧ message.role ≠ "user" then
    c.claudeMessages ++ [{ role := "user", content := .blocks [.text "..."] }]
  else c.claudeMessages

def Converted.visit (c : Converted α) (message : Message) : Except String (Converted α) :=
  if message.role = "system" then
    .ok { c with systemMessages := c.systemMessages ++ systemBlocks message.content }
  else if message.role = "tool" then
    .ok { c with
      claudeMessages := addToolResult message (c.opened message), isFirstMessage := false }
  else do
    let content ← claudeContent getBase64Data unmarshal message
    return { c with
      claudeMessages := c.opened message ++ [{ role := message.role, content := content }]
      isFirstMessage := false }

def requestOpenAI2ClaudeMessage (messages : List Message) : Except String (ClaudeRequest α) := do
  let c ← (formatMessages messages).foldlM (Converted.visit getBase64Data unmarshal) {}
  return { system := c.systemMessages, messages := c.claudeMessages }

end

/-! ## What is due and what is given -/

/-- What is read in a request.  A message without content is `blank`. -/
inductive RequestItem (α : Type u) where
  | blank (role : String)
  | text (role text : String)
  | file (data : Except String (String × String))
  | call (id name : String) (input : Option α)
  | result (toolUseId : String) (content : Content)

section

variable {α : Type u}

def blockItem (role : String) : RequestBlock α → RequestItem α
  | .text s => .text role s
  | .media _ mediaType data => .file (.ok (data, mediaType))
  | .toolUse id name input => .call id name (some input)
  | .toolResult toolUseId content => .result toolUseId content

def ClaudeMessage.items (message : ClaudeMessage α) : List (RequestItem α) :=
  message.content.toBlocks.map (blockItem message.role)

/-- A message without content is shown by three dots, and by nothing when it
is joined to another one. -/
inductive Shows : RequestItem α → RequestItem α → Prop where
  | same (item : RequestItem α) : Shows item item
  | dots (role : String) : Shows (.blank role) (.text role "...")
  | nothing (role : String) : Shows (.blank role) (.text role "")

inductive SpaceBetween : RequestItem α → RequestItem α → RequestItem α → Prop where
  | texts (role s t : String) :
      SpaceBetween (.text role s) (.text role t) (.text role (s ++ " " ++ t))

variable (getBase64Data : FileSource → Except String (String × String))
variable (unmarshal : String → Option α)

def partItems (role : String) (part : MediaContent) : List (RequestItem α) :=
  match part with
  | .text s => if s = "" then [] else [.text role s]
  | part => (part.toFileSource.map fun source => .file (getBase64Data source)).toList

def contentItems (role : String) : Content → List (RequestItem α)
  | .null => [.blank role]
  | .text s => if s = "" then [.blank role] else [.text role s]
  | content => content.parseContent.flatMap (partItems getBase64Data role)

def callItems (message : Message) : List (RequestItem α) :=
  if message.role = "assistant" then
    message.parseToolCalls.map fun call => .call call.id call.name (unmarshal call.arguments)
  else []

def itemsAs (role : String) (message : Message) : List (RequestItem α) :=
  if message.role = "tool" then [.result message.toolCallId (fillContent message.content)]
  else contentItems getBase64Data role message.content ++ callItems unmarshal message

def roleOf (message : Message) : String := if message.role = "" then "user" else message.role

def dueItems (message : Message) : List (RequestItem α) :=
  itemsAs getBase64Data unmarshal (roleOf message) message

def opening (messages : List Message) : List (RequestItem α) :=
  match messages.find? fun m => m.role ≠ "system" with
  | some first => if roleOf first = "user" then [] else [.blank "user"]
  | none => []

structure Whole (messages : List Message) (out : ClaudeRequest α) : Prop where
  start : ∃ first rest, out.messages = first :: rest ∧ first.role = "user"
  roles : ∀ m ∈ out.messages, m.role = "user" ∨ m.role = "assistant"
  system : Glued Shows SpaceBetween
    ((messages.filter fun m => m.role = "system").flatMap (dueItems getBase64Data unmarshal))
    (out.system.map (blockItem "system"))
  turns : Glued Shows SpaceBetween
    (opening messages ++
      (messages.filter fun m => m.role ≠ "system").flatMap (dueItems getBase64Data unmarshal))
    (out.messages.flatMap items)

end

def Merges (first second : Message) : Prop :=
  first.role = second.role ∧ first.role ≠ "tool" ∧
    (isStringContent first.content ∨ first.content = .null) ∧ isStringContent second.content

instance (first second : Message) : Decidable (Merges first second) :=
  inferInstanceAs (Decidable (_ ∧ _ ∧ _ ∧ _))

/-- Nothing is lost where messages are joined: a message that is joined to the
next one has no tool calls, and there is no quote at the ends.  `start` is the
text with which the joined text starts. -/
def CleanJoins (start : String) : Message → List Message → Prop
  | _, [] => True
  | first, second :: rest =>
    if Merges first second then
      (first.role = "assistant" → first.parseToolCalls = []) ∧
        start.toList.head? ≠ some '"' ∧
        second.content.stringContent.toList.getLast? ≠ some '"' ∧
        CleanJoins start second rest
    else CleanJoins second.content.stringContent second rest

def CleanJoins.decide (start : String) :
    (first : Message) → (rest : List Message) → Decidable (CleanJoins start first rest)
  | _, [] => isTrue trivial
  | first, second :: rest =>
    have := CleanJoins.decide start second rest
    have := CleanJoins.decide second.content.stringContent second rest
    inferInstanceAs (Decidable (if Merges first second then _ ∧ _ ∧ _ ∧ _ else _))

instance (start : String) (first : Message) (rest : List Message) :
    Decidable (CleanJoins start first rest) := CleanJoins.decide start first rest

structure Carried (messages : List Message) : Prop where
  roles : ∀ m ∈ messages, m.role ≠ ""
  turn : ∃ m ∈ messages, m.role ≠ "system"
  system : ∀ m ∈ messages, m.role = "system" →
    ∀ part ∈ m.content.parseContent, part.toFileSource = none
  joins : ∀ first rest, messages = first :: rest → CleanJoins first.content.stringContent first rest

/-! ## The first pass -/

def formatFrom (last : Message) : List Message → List Message
  | [] => [last]
  | message :: rest =>
    if Merges last message then
      formatFrom (joinMessages last message) rest
    else last :: formatFrom (fill (bare message)) rest

structure Filled (message : Message) : Prop where
  notNull : message.content ≠ .null
  notEmpty : message.content ≠ .text ""

theorem filled_fill (message : Message) : Filled (fill message) := by
  constructor <;>
  · unfold fill fillContent
    split
    · simp
    · split <;> simp_all
    · simp_all

theorem filled_join (last next : Message) : Filled (joinMessages last next) := filled_fill _

variable {message last next : Message} {start : String}

theorem Filled.text (h : Filled message) {s : String} (hs : message.content = .text s) :
    s ≠ "" := by
  rintro rfl
  exact h.notEmpty hs

theorem Filled.fillContent_eq (h : Filled message) :
    fillContent message.content = message.content := by
  cases hs : message.content with
  | null => exact absurd hs h.notNull
  | text => simp [fillContent, h.text hs]
  | items => rfl

private theorem visit_eq (h : Filled last) (before : List Message) (message : Message) :
    visit { formatMessages := before ++ [last], lastMessage := last } message =
      if Merges last message then
        { formatMessages := before ++ [joinMessages last message]
          lastMessage := joinMessages last message }
      else
        { formatMessages := before ++ [last] ++ [fill (bare message)]
          lastMessage := fill (bare message) } := by
  have hmerges : Merges last message ↔ last.role = message.role ∧ last.role ≠ "tool" ∧
      isStringContent last.content ∧ isStringContent message.content := by
    simp [Merges, h.notNull]
  simp [visit, hmerges]

private theorem foldl_visit (h : Filled last) (before rest : List Message) :
    (rest.foldl visit
      { formatMessages := before ++ [last], lastMessage := last }).formatMessages =
      before ++ formatFrom last rest := by
  induction rest generalizing last before with
  | nil => rfl
  | cons message rest ih =>
    rw [foldl_cons, visit_eq h, formatFrom]
    split
    · exact ih (filled_fill _) before
    · rw [ih (filled_fill _) (before ++ [last]), append_assoc]
      rfl

theorem formatMessages_cons (first : Message) (rest : List Message) :
    formatMessages (first :: rest) = formatFrom (fill (bare first)) rest := by
  have hfirst : visit {} first =
      { formatMessages := [] ++ [fill (bare first)], lastMessage := fill (bare first) } := by
    unfold visit
    rw [if_neg (by simp)]
  rw [formatMessages, foldl_cons, hfirst, foldl_visit (filled_fill _)]
  rfl

/-- `last` stands for `message`, alone or joined to messages before it. -/
structure Carries (last message : Message) (start : String) : Prop where
  filled : Filled last
  role : last.role = message.role
  calls : last.toolCalls = (bare message).toolCalls
  string : isStringContent last.content ↔ isStringContent message.content ∨ message.content = .null
  quote : last.content.stringContent.toList.head? = some '"' ↔ start.toList.head? = some '"'

theorem carries_fill (message : Message) :
    Carries (fill (bare message)) message message.content.stringContent := by
  refine ⟨filled_fill _, rfl, rfl, ?_, ?_⟩
  · cases hcontent : message.content with
    | text =>
      simp only [fill, bare, hcontent, fillContent]
      split <;> simp [isStringContent]
    | _ => simp [fill, bare, hcontent, fillContent, isStringContent]
  · cases hcontent : message.content with
    | null => simp [fill, bare, hcontent, fillContent, Content.stringContent]
    | text =>
      simp only [fill, bare, hcontent, fillContent]
      split <;> simp_all [Content.stringContent]
    | items => simp [fill, bare, hcontent, fillContent]

theorem Carries.merges_iff (h : Carries last message start) (next : Message) :
    Merges last next ↔ Merges message next := by
  have hnull : last.content ≠ .null := h.filled.notNull
  simp [Merges, h.role, h.string, hnull]

theorem Merges.texts (h : Merges last next) (hlast : Filled last) :
    ∃ s t, last.content = .text s ∧ s ≠ "" ∧ next.content = .text t := by
  obtain ⟨-, -, hstring, hnext⟩ := h
  cases hs : last.content with
  | null => exact absurd hs hlast.notNull
  | text s =>
    cases ht : next.content with
    | text t => exact ⟨s, t, rfl, hlast.text hs, rfl⟩
    | null | items => simp [ht, isStringContent] at hnext
  | items => simp [hs, isStringContent] at hstring

theorem joinedText_ne_empty : joinedText last next ≠ "" := by
  intro h
  obtain ⟨before, after, htext, hbefore, hafter⟩ := exists_trimChar '"'
    (last.content.stringContent ++ " " ++ next.content.stringContent)
  have hspace : ' ' ∈ before ++ ((joinedText last next).toList ++ after) := by
    rw [joinedText, ← htext]
    simp
  rw [h] at hspace
  rcases mem_append.mp hspace with hmem | hmem
  · exact absurd (hbefore ' ' hmem) (by decide)
  · exact absurd (hafter ' ' (by simpa using hmem)) (by decide)

theorem joinMessages_role (last next : Message) : (joinMessages last next).role = next.role := by
  simp [joinMessages, fill, bare]

theorem joinMessages_toolCalls (last next : Message) :
    (joinMessages last next).toolCalls = (bare next).toolCalls := by
  simp [joinMessages, fill]

theorem joinMessages_content (last next : Message) :
    (joinMessages last next).content = .text (joinedText last next) := by
  simp [joinMessages, fill, fillContent, joinedText_ne_empty]

theorem Carries.join (h : Carries last message start) (hmerges : Merges last next)
    (htrim : joinedText last next =
      last.content.stringContent ++ " " ++ next.content.stringContent) :
    Carries (joinMessages last next) next start := by
  obtain ⟨s, t, hs, hne, ht⟩ := hmerges.texts h.filled
  refine ⟨filled_join last next, joinMessages_role last next, joinMessages_toolCalls last next,
    ?_, ?_⟩
  · simp [joinMessages_content, ht, isStringContent]
  · obtain ⟨c, l, hl⟩ := exists_cons_of_ne_nil fun hnil => hne (String.toList_eq_nil_iff.mp hnil)
    rw [← h.quote, joinMessages_content, Content.stringContent, htrim, hs]
    simp [Content.stringContent, hl]

/-! ## What can be counted -/

section

variable {α : Type u}

def tokens : RequestItem α → List (Option Char)
  | .text _ s => none :: (s.toList.filter fun c => c ≠ '.').map some
  | _ => [none]

def weight (items : List (RequestItem α)) : Nat := (items.flatMap tokens).length

@[simp] theorem weight_nil : weight ([] : List (RequestItem α)) = 0 := rfl

@[simp] theorem weight_append (first second : List (RequestItem α)) :
    weight (first ++ second) = weight first + weight second := by
  simp [weight]

theorem weight_cons (item : RequestItem α) (items : List (RequestItem α)) :
    weight (item :: items) = (tokens item).length + weight items := by
  simp [weight]

@[simp] theorem weight_text_cons (role s : String) (items : List (RequestItem α)) :
    weight (.text role s :: items) =
      (s.toList.filter fun c => c ≠ '.').length + 1 + weight items := by
  simp [weight_cons, tokens]

@[simp] theorem weight_blank_cons (role : String) (items : List (RequestItem α)) :
    weight (.blank role :: items) = 1 + weight items := weight_cons (.blank role) items

private theorem length_le_weight (items : List (RequestItem α)) : items.length ≤ weight items := by
  induction items with
  | nil => exact Nat.le_refl 0
  | cons item =>
    have hitem : 1 ≤ (tokens item).length := by cases item <;> simp [tokens]
    rw [length_cons, weight_cons]
    omega

variable {due : List (RequestItem α)} {message last next : Message} {s start : String}
  {rest messages : List Message} {part : MediaContent} {parts : List MediaContent} {c : Converted α}
  {list : List ContentItem} {source : FileSource}

theorem weight_eq_of_glued {given : List (RequestItem α)} (h : Glued Shows SpaceBetween due given) :
    weight due = weight given := by
  refine h.length_flatMap (fun hshow => ?_) (fun hglue => ?_)
  · cases hshow <;> rfl
  · cases hglue
    simp [tokens]
    omega

variable (getBase64Data : FileSource → Except String (String × String))
variable (unmarshal : String → Option α)

def itemsOf (message : Message) : List (RequestItem α) :=
  itemsAs getBase64Data unmarshal message.role message

theorem callItems_fill (message : Message) :
    callItems unmarshal (fill (bare message)) = callItems unmarshal message := by
  unfold callItems Message.parseToolCalls
  by_cases h : message.role = "assistant" <;> simp [fill, bare, h]

private theorem callItems_join (last next : Message) :
    callItems unmarshal (joinMessages last next) = callItems unmarshal next := by
  unfold callItems Message.parseToolCalls
  rw [joinMessages_role, joinMessages_toolCalls]
  by_cases h : next.role = "assistant" <;> simp [bare, h]

theorem itemsOf_of_text (hrole : message.role ≠ "tool") (hs : message.content = .text s)
    (hne : s ≠ "") :
    itemsOf getBase64Data unmarshal message =
      .text message.role s :: callItems unmarshal message := by
  simp [itemsOf, itemsAs, hrole, hs, contentItems, hne]

theorem itemsOf_join (h : Merges last next) :
    itemsOf getBase64Data unmarshal (joinMessages last next) =
      .text next.role (joinedText last next) :: callItems unmarshal next := by
  have hrole : (joinMessages last next).role ≠ "tool" := by
    rw [joinMessages_role, ← h.1]
    exact h.2.1
  rw [itemsOf_of_text _ _ hrole (joinMessages_content last next) joinedText_ne_empty,
    callItems_join, joinMessages_role]

theorem weight_fill (message : Message) :
    weight (itemsOf getBase64Data unmarshal (fill (bare message))) =
      weight (itemsOf getBase64Data unmarshal message) := by
  unfold itemsOf itemsAs
  rw [callItems_fill]
  by_cases hrole : message.role = "tool"
  · simp [fill, bare, hrole, weight, tokens]
  simp only [fill, bare, hrole, if_false, weight_append, Nat.add_right_cancel_iff]
  cases message.content with
  | null => simp [fillContent, contentItems]
  | text s => by_cases hs : s = "" <;> simp [fillContent, contentItems, hs]
  | items => rfl

theorem weight_join (hmerges : Merges last next) (hlast : Filled last) :
    weight (itemsOf getBase64Data unmarshal (joinMessages last next)) ≤
        weight (itemsOf getBase64Data unmarshal last) +
          weight (itemsOf getBase64Data unmarshal next) ∧
      (weight (itemsOf getBase64Data unmarshal (joinMessages last next)) =
          weight (itemsOf getBase64Data unmarshal last) +
            weight (itemsOf getBase64Data unmarshal next) →
        callItems unmarshal last = [] ∧ joinedText last next =
          last.content.stringContent ++ " " ++ next.content.stringContent) := by
  obtain ⟨s, t, hs, hne, ht⟩ := hmerges.texts hlast
  have hnext : weight (itemsOf getBase64Data unmarshal next) =
      (t.toList.filter fun c => c ≠ '.').length + 1 + weight (callItems unmarshal next) := by
    have hrole : next.role ≠ "tool" := hmerges.1 ▸ hmerges.2.1
    by_cases hempty : t = "" <;>
      simp [itemsOf, itemsAs, hrole, ht, contentItems, hempty]
  obtain ⟨hle, heq⟩ := length_filter_trimChar (c := '"') (p := fun c => c ≠ '.') (by decide)
    (last.content.stringContent ++ " " ++ next.content.stringContent)
  have hwhole : ((last.content.stringContent ++ " " ++ next.content.stringContent).toList.filter
      fun c => c ≠ '.').length = (s.toList.filter fun c => c ≠ '.').length + 1 +
        (t.toList.filter fun c => c ≠ '.').length := by
    rw [hs, ht]
    simp [Content.stringContent]
    omega
  rw [itemsOf_join _ _ hmerges, itemsOf_of_text _ _ hmerges.2.1 hs hne,
    weight_text_cons, weight_text_cons, hnext]
  have hcalls := length_le_weight (callItems unmarshal last)
  rw [hwhole] at hle heq
  unfold joinedText
  refine ⟨by omega, fun h => ⟨eq_nil_of_length_eq_zero (by omega), heq (by omega)⟩⟩

theorem weight_formatFrom (hlast : Filled last) (rest : List Message) :
    weight ((formatFrom last rest).flatMap (itemsOf getBase64Data unmarshal)) ≤
      weight (itemsOf getBase64Data unmarshal last) +
        weight (rest.flatMap (itemsOf getBase64Data unmarshal)) := by
  induction rest generalizing last with
  | nil => simp [formatFrom]
  | cons next rest ih =>
    rw [formatFrom, flatMap_cons, weight_append]
    split
    · next hmerges =>
      have hjoin := (weight_join getBase64Data unmarshal hmerges hlast).1
      have hrest := ih (filled_join last next)
      omega
    · have hfill := weight_fill getBase64Data unmarshal next
      have hrest := ih (filled_fill (bare next))
      rw [flatMap_cons, weight_append]
      omega

theorem callItems_eq_nil_iff (h : Carries last message start) :
    callItems unmarshal last = [] ↔ (message.role = "assistant" → message.parseToolCalls = []) := by
  unfold callItems Message.parseToolCalls
  rw [h.role, h.calls]
  by_cases hrole : message.role = "assistant" <;> simp [bare, hrole]

theorem joinedText_eq_iff (hs : last.content = .text s) (hne : s ≠ "") :
    joinedText last next = last.content.stringContent ++ " " ++ next.content.stringContent ↔
      last.content.stringContent.toList.head? ≠ some '"' ∧
        next.content.stringContent.toList.getLast? ≠ some '"' := by
  obtain ⟨c, l, hl⟩ := exists_cons_of_ne_nil fun hnil => hne (String.toList_eq_nil_iff.mp hnil)
  have htext : (s ++ " " ++ next.content.stringContent).toList =
      s.toList ++ ' ' :: next.content.stringContent.toList := by simp
  rw [joinedText, trimChar_eq_self_iff, hs, Content.stringContent, htext, getLast?_append,
    getLast?_cons]
  cases next.content.stringContent.toList.getLast? <;> simp [hl]

private theorem cleanJoins_of_weight (h : Carries last message start)
    (hweight : weight ((formatFrom last rest).flatMap (itemsOf getBase64Data unmarshal)) =
      weight (itemsOf getBase64Data unmarshal last) +
        weight (rest.flatMap (itemsOf getBase64Data unmarshal))) :
    CleanJoins start message rest := by
  induction rest generalizing last message start with
  | nil => trivial
  | cons next rest ih =>
    rw [formatFrom, flatMap_cons, weight_append] at hweight
    rw [CleanJoins]
    split
    · next hmessage =>
      have hmerges : Merges last next := (h.merges_iff next).mpr hmessage
      rw [if_pos hmerges] at hweight
      obtain ⟨s, t, hs, hne, ht⟩ := hmerges.texts h.filled
      obtain ⟨hle, heq⟩ := weight_join getBase64Data unmarshal hmerges h.filled
      have hrest := weight_formatFrom getBase64Data unmarshal (filled_join last next) rest
      obtain ⟨hcalls, htext⟩ := heq (by omega)
      obtain ⟨hhead, hlast⟩ := (joinedText_eq_iff hs hne).mp htext
      refine ⟨(callItems_eq_nil_iff unmarshal h).mp hcalls, ?_, hlast, ?_⟩
      · exact fun hquote => hhead (h.quote.mpr hquote)
      · exact ih (h.join hmerges htext) (by omega)
    · next hmessage =>
      have hmerges : ¬ Merges last next := fun hjoin => hmessage ((h.merges_iff next).mp hjoin)
      rw [if_neg hmerges, flatMap_cons, weight_append] at hweight
      have hfill := weight_fill getBase64Data unmarshal next
      exact ih (carries_fill next) (by omega)

/-! ## Where nothing is lost -/

theorem SpaceBetween.assoc {a b c ab abc : RequestItem α} (h : SpaceBetween a b ab)
    (h' : SpaceBetween ab c abc) : ∃ bc, SpaceBetween b c bc ∧ SpaceBetween a bc abc := by
  cases h with
  | texts role s t =>
    cases h' with
    | texts _ _ u =>
      refine ⟨.text role (t ++ " " ++ u), .texts role t u, ?_⟩
      have hassoc : s ++ " " ++ t ++ " " ++ u = s ++ " " ++ (t ++ " " ++ u) := by
        simp [String.append_assoc]
      rw [hassoc]
      exact .texts role s _

theorem glued_same (items : List (RequestItem α)) : Glued Shows SpaceBetween items items := by
  have h : Glued Shows SpaceBetween (items.map id) items := Glued.of_same fun item _ => .same item
  rwa [map_id] at h

variable {unmarshal getBase64Data}

theorem glued_fill (message : Message) :
    Glued Shows SpaceBetween (itemsOf getBase64Data unmarshal message)
      (itemsOf getBase64Data unmarshal (fill (bare message))) := by
  unfold itemsOf itemsAs
  rw [callItems_fill]
  by_cases hrole : message.role = "tool"
  · have hfill : fillContent (fillContent message.content) = fillContent message.content :=
      (filled_fill message).fillContent_eq
    simp only [fill, bare, hrole, if_true, hfill]
    exact glued_same _
  · simp only [fill, bare, hrole, if_false]
    refine Glued.append ?_ (glued_same _)
    cases message.content with
    | null => exact .keep (.dots message.role) .nil
    | text s =>
      by_cases hs : s = ""
      · simp only [contentItems, fillContent, hs, if_true]
        exact .keep (.dots message.role) .nil
      · simp only [contentItems, fillContent, hs, if_false]
        exact glued_same _
    | items => exact glued_same _

private theorem glued_join (hmerges : Merges last next) (hlast : Filled last)
    (hcalls : callItems unmarshal last = [])
    (htext : joinedText last next = last.content.stringContent ++ " " ++ next.content.stringContent)
    (hdue : Glued Shows SpaceBetween due (itemsOf getBase64Data unmarshal last)) :
    Glued Shows SpaceBetween (due ++ itemsOf getBase64Data unmarshal next)
      (itemsOf getBase64Data unmarshal (joinMessages last next)) := by
  obtain ⟨s, t, hs, hne, ht⟩ := hmerges.texts hlast
  have hrole : next.role ≠ "tool" := hmerges.1 ▸ hmerges.2.1
  rw [itemsOf_of_text _ _ hmerges.2.1 hs hne, hcalls] at hdue
  rw [itemsOf_join _ _ hmerges, htext, hs, ht, ← hmerges.1]
  obtain ⟨item, hitem, hshow⟩ : ∃ item : RequestItem α,
      itemsOf getBase64Data unmarshal next = item :: callItems unmarshal next ∧
        Shows item (.text last.role t) := by
    by_cases hempty : t = ""
    · refine ⟨.blank last.role, ?_, hempty ▸ .nothing last.role⟩
      simp [itemsOf, itemsAs, hrole, ht, contentItems, hempty, hmerges.1]
    · exact ⟨.text last.role t, hmerges.1 ▸ itemsOf_of_text _ _ hrole ht hempty, .same _⟩
  have hconcat := hdue.concat SpaceBetween.assoc hshow (.texts last.role s t)
  have hall := hconcat.append (glued_same (callItems unmarshal next))
  rw [hitem, ← singleton_append, ← append_assoc]
  exact hall

variable (getBase64Data unmarshal)

private theorem glued_formatFrom (kind : String → Bool) (h : Carries last message start)
    (hclean : CleanJoins start message rest)
    (hdue : Glued Shows SpaceBetween due (itemsOf getBase64Data unmarshal last)) :
    Glued Shows SpaceBetween
      ((if kind last.role then due else []) ++
        (rest.filter fun m => kind m.role).flatMap (itemsOf getBase64Data unmarshal))
      (((formatFrom last rest).filter fun m => kind m.role).flatMap
        (itemsOf getBase64Data unmarshal)) := by
  induction rest generalizing last message start due with
  | nil => by_cases hkind : kind last.role <;> simp [formatFrom, hkind, hdue, Glued.nil]
  | cons next rest ih =>
    rw [CleanJoins] at hclean
    rw [formatFrom]
    by_cases hmerges : Merges last next
    · rw [if_pos ((h.merges_iff next).mp hmerges)] at hclean
      obtain ⟨hcalls, hhead, hlast, hrest⟩ := hclean
      obtain ⟨s, t, hs, hne, -⟩ := hmerges.texts h.filled
      have htext := (joinedText_eq_iff hs hne).mpr ⟨fun hquote => hhead (h.quote.mp hquote), hlast⟩
      have hjoin := glued_join hmerges h.filled
        ((callItems_eq_nil_iff unmarshal h).mpr hcalls) htext hdue
      have hall := ih (h.join hmerges htext) hrest hjoin
      rw [if_pos hmerges]
      rw [joinMessages_role] at hall
      rw [hmerges.1]
      by_cases hkind : kind next.role
      · simpa [hkind, append_assoc] using hall
      · simpa [hkind] using hall
    · have hnot : ¬ Merges message next := fun hjoin => hmerges ((h.merges_iff next).mpr hjoin)
      rw [if_neg hnot] at hclean
      have hall := ih (carries_fill next) hclean (glued_fill next)
      have hrole : (fill (bare next)).role = next.role := rfl
      rw [hrole] at hall
      rw [if_neg hmerges]
      by_cases hlast : kind last.role
      · by_cases hkind : kind next.role <;> simpa [hlast, hkind] using hdue.append hall
      · by_cases hkind : kind next.role <;> simpa [hlast, hkind] using hall

/-! ## The second pass -/

variable {getBase64Data}

private theorem map_blockItem_mediaBlock (role : String) {blocks : List (RequestBlock α)}
    (h : mediaBlock getBase64Data part = .ok blocks) :
    blocks.map (blockItem role) = partItems getBase64Data role part := by
  have hfile : ∀ part : MediaContent, (∀ s, part ≠ .text s) →
      mediaBlock getBase64Data part = .ok blocks →
      blocks.map (blockItem role) =
        (part.toFileSource.map fun source => .file (getBase64Data source)).toList := by
    intro part htext h
    unfold mediaBlock at h
    split at h
    · next s => exact absurd rfl (htext s)
    split at h
    · next hnone =>
      cases h
      simp [hnone]
    next source hsource =>
    split at h
    · cases h
    next base64Data mimeType hdata =>
    cases h
    simp [hsource, hdata, blockItem]
  cases part with
  | text s =>
    cases h
    by_cases hs : s = "" <;> simp [partItems, hs, blockItem]
  | _ => exact hfile _ (fun _ => MediaContent.noConfusion) h

private theorem map_blockItem_mapM (role : String) {media : List (List (RequestBlock α))}
    (h : parts.mapM (mediaBlock getBase64Data) = .ok media) :
    media.flatten.map (blockItem role) = parts.flatMap (partItems getBase64Data role) := by
  have hparts := forall₂_of_mapM h
  clear h
  induction hparts with
  | nil => rfl
  | cons hpart _ ih =>
    rw [flatten_cons, map_append, ih, flatMap_cons, map_blockItem_mediaBlock role hpart]

structure Ready (message : Message) : Prop where
  filled : Filled message
  calls : message.role ≠ "assistant" → message.toolCalls = none
  readable : ∀ call ∈ message.parseToolCalls, (unmarshal call.arguments).isSome

variable {unmarshal}

private theorem map_blockItem_toolUse (role : String) (h : Ready unmarshal message) :
    (message.parseToolCalls.flatMap (toolUse unmarshal)).map (blockItem role) =
      callItems unmarshal message := by
  have hcalls : ∀ calls : List ToolCallRequest,
      (∀ call ∈ calls, (unmarshal call.arguments).isSome) →
      (calls.flatMap (toolUse unmarshal)).map (blockItem role) =
        calls.map fun call => .call call.id call.name (unmarshal call.arguments) := by
    intro calls hreadable
    induction calls with
    | nil => rfl
    | cons call calls ih =>
      obtain ⟨input, hinput⟩ := Option.isSome_iff_exists.mp (hreadable call mem_cons_self)
      rw [flatMap_cons, map_append, ih fun c hc => hreadable c (mem_cons_of_mem _ hc)]
      simp [toolUse, hinput, blockItem]
  rw [hcalls _ h.readable, callItems]
  split
  · rfl
  · next hrole => rw [Message.parseToolCalls, h.calls hrole]; rfl

theorem contentItems_eq (h : Filled message) (role : String) :
    contentItems (α := α) getBase64Data role message.content =
      message.content.parseContent.flatMap (partItems getBase64Data role) := by
  cases hs : message.content with
  | null => exact absurd hs h.notNull
  | text => simp [Content.parseContent, contentItems, partItems, h.text hs]
  | items => rfl

private theorem items_claudeContent (h : Ready unmarshal message) (hrole : message.role ≠ "tool")
    {content : ClaudeContent α}
    (hcontent : claudeContent getBase64Data unmarshal message = .ok content) :
    content.toBlocks.map (blockItem message.role) = itemsOf getBase64Data unmarshal message := by
  have hblocks : ∀ {media : List (List (RequestBlock α))},
      message.content.parseContent.mapM (mediaBlock getBase64Data) = .ok media →
      (media.flatten ++ message.parseToolCalls.flatMap (toolUse unmarshal)).map
        (blockItem message.role) = itemsOf getBase64Data unmarshal message := by
    intro media hmedia
    rw [map_append, map_blockItem_mapM message.role hmedia, map_blockItem_toolUse message.role h,
      itemsOf, itemsAs, if_neg hrole, contentItems_eq h.filled]
  unfold claudeContent at hcontent
  split at hcontent
  · next s hs hnone =>
    cases hcontent
    rw [itemsOf_of_text _ _ hrole hs (h.filled.text hs), if_neg (h.filled.text hs)]
    simp [toBlocks, blockItem, callItems, Message.parseToolCalls, hnone]
  · obtain ⟨media, hmedia, hreturn⟩ := bind_eq_ok.mp hcontent
    obtain rfl := pure_eq_ok.mp hreturn
    exact hblocks hmedia

private theorem items_addToolResult (message : Message) (messages : List (ClaudeMessage α)) :
    (addToolResult message messages).flatMap items =
      messages.flatMap items ++ [.result message.toolCallId message.content] := by
  unfold addToolResult
  split
  · next last hlast =>
    obtain ⟨before, rfl⟩ := getLast?_eq_some_iff.mp hlast
    split <;> simp [items, toBlocks, blockItem]
  · simp [items, toBlocks, blockItem]

variable {c' : Converted α} {f : Message} {out : ClaudeRequest α}

theorem visit_cases (h : c.visit getBase64Data unmarshal message = .ok c') :
    (message.role = "system" ∧
        c' = { c with systemMessages := c.systemMessages ++ systemBlocks message.content }) ∨
      (message.role = "tool" ∧
        c' = { c with
          claudeMessages := addToolResult message (c.opened message), isFirstMessage := false }) ∨
      (message.role ≠ "system" ∧ message.role ≠ "tool" ∧
        ∃ content, claudeContent getBase64Data unmarshal message = .ok content ∧
          c' = { c with
            claudeMessages := c.opened message ++ [{ role := message.role, content := content }]
            isFirstMessage := false }) := by
  unfold Converted.visit at h
  split at h
  · next hrole => exact .inl ⟨hrole, (Except.ok.inj h).symm⟩
  next hsystem =>
  split at h
  · next hrole => exact .inr (.inl ⟨hrole, (Except.ok.inj h).symm⟩)
  next htool =>
  obtain ⟨content, hcontent, hreturn⟩ := bind_eq_ok.mp h
  exact .inr (.inr ⟨hsystem, htool, content, hcontent, (pure_eq_ok.mp hreturn).symm⟩)

def systemItems (message : Message) : List (RequestItem α) :=
  (systemBlocks message.content).map (blockItem "system")

def openingAt (isFirst : Bool) (message : Message) : List (RequestItem α) :=
  if isFirst ∧ message.role ≠ "user" then [.text "user" "..."] else []

theorem items_opened (c : Converted α) (message : Message) :
    (c.opened message).flatMap items =
      c.claudeMessages.flatMap items ++ openingAt c.isFirstMessage message := by
  unfold Converted.opened openingAt
  split <;> simp [items, toBlocks, blockItem]

theorem visit_isFirst (h : c.visit getBase64Data unmarshal message = .ok c') :
    c'.isFirstMessage = (c.isFirstMessage && decide (message.role = "system")) := by
  rcases visit_cases h with ⟨hrole, rfl⟩ | ⟨hrole, rfl⟩ | ⟨hrole, -, content, -, rfl⟩ <;>
    simp [hrole]

private theorem visit_claudeMessages (hready : Ready unmarshal message)
    (h : c.visit getBase64Data unmarshal message = .ok c') :
    c'.claudeMessages.flatMap items = c.claudeMessages.flatMap items ++
      if message.role = "system" then []
      else openingAt c.isFirstMessage message ++ itemsOf getBase64Data unmarshal message := by
  rcases visit_cases h with
    ⟨hrole, rfl⟩ | ⟨hrole, rfl⟩ | ⟨hrole, htool, content, hcontent, rfl⟩
  · simp [hrole]
  · rw [items_addToolResult, items_opened]
    simp [hrole, itemsOf, itemsAs, hready.filled.fillContent_eq]
  · have hitems := items_claudeContent hready htool hcontent
    rw [flatMap_append, items_opened, flatMap_singleton, items, hitems, if_neg hrole, append_assoc]

variable (getBase64Data unmarshal)

private theorem foldlM_systemMessages
    (h : messages.foldlM (Converted.visit getBase64Data unmarshal) c = .ok c') :
    c'.systemMessages.map (blockItem "system") = c.systemMessages.map (blockItem "system") ++
      messages.flatMap fun m => if m.role = "system" then systemItems m else [] := by
  refine foldlM_collect (fun c : Converted α => c.systemMessages.map (blockItem "system"))
    (fun _ hstep => ?_) h
  rcases visit_cases hstep with ⟨hrole, rfl⟩ | ⟨hrole, rfl⟩ | ⟨hrole, -, content, -, rfl⟩
  · simp [hrole, systemItems]
  · simp [hrole]
  · simp [hrole]

def openingOf (messages : List Message) : List (RequestItem α) :=
  match messages.find? fun m => m.role ≠ "system" with
  | some first => openingAt true first
  | none => []

private theorem foldlM_claudeMessages (hready : ∀ m ∈ messages, Ready unmarshal m)
    (h : messages.foldlM (Converted.visit getBase64Data unmarshal) c = .ok c') :
    c'.claudeMessages.flatMap items =
      c.claudeMessages.flatMap items ++
        ((if c.isFirstMessage then openingOf messages else []) ++
          messages.flatMap fun m =>
            if m.role = "system" then [] else itemsOf getBase64Data unmarshal m) := by
  induction messages generalizing c with
  | nil =>
    rw [foldlM_nil, pure_eq_ok] at h
    simp [h, openingOf]
  | cons message messages ih =>
    rw [foldlM_cons, bind_eq_ok] at h
    obtain ⟨d, hd, hrest⟩ := h
    rw [ih (fun m hm => hready m (mem_cons_of_mem message hm)) hrest,
      visit_claudeMessages (hready message mem_cons_self) hd, visit_isFirst hd, flatMap_cons]
    by_cases hrole : message.role = "system"
    · simp [hrole, openingOf]
    · cases hb : c.isFirstMessage <;> simp [hrole, openingOf, openingAt]

def Converted.roles (c : Converted α) : List String := c.claudeMessages.map role

private theorem roles_addToolResult (message : Message) (messages : List (ClaudeMessage α)) :
    ∃ more, (addToolResult message messages).map role = messages.map role ++ more ∧
      ∀ r ∈ more, r = "user" := by
  unfold addToolResult
  split
  · next last hlast =>
    obtain ⟨before, rfl⟩ := getLast?_eq_some_iff.mp hlast
    split
    · exact ⟨[], by simp, by simp⟩
    · exact ⟨["user"], by simp, by simp⟩
  · exact ⟨["user"], by simp, by simp⟩

structure AddsRoles (message : Message) (isFirst : Bool) (more : List String) : Prop where
  only : ∀ r ∈ more, r = "user" ∨ (r = message.role ∧ r ≠ "system" ∧ r ≠ "tool")
  own : message.role ≠ "system" → message.role ≠ "tool" → message.role ∈ more
  none : message.role = "system" → more = []
  first : isFirst → message.role ≠ "system" → more.head? = some "user"

theorem roles_opened (c : Converted α) (message : Message) :
    (c.opened message).map role =
      c.roles ++ if c.isFirstMessage ∧ message.role ≠ "user" then ["user"] else [] := by
  unfold Converted.opened Converted.roles
  split <;> simp

variable {unmarshal getBase64Data}

private theorem visit_roles (h : c.visit getBase64Data unmarshal message = .ok c') :
    ∃ more, c'.roles = c.roles ++ more ∧ AddsRoles message c.isFirstMessage more := by
  have hopened : ∀ r ∈ if c.isFirstMessage ∧ message.role ≠ "user" then ["user"] else [],
      r = "user" := by
    intro r hr
    split at hr <;> simp_all
  rcases visit_cases h with
    ⟨hrole, rfl⟩ | ⟨hrole, rfl⟩ | ⟨hrole, htool, content, -, rfl⟩
  · exact ⟨[], by simp [Converted.roles], by simp, by simp [hrole], by simp, by simp [hrole]⟩
  · obtain ⟨more, hmore, huser⟩ := roles_addToolResult message (c.opened message)
    rw [roles_opened, append_assoc] at hmore
    refine ⟨_, hmore, ?_, by simp [hrole], by simp [hrole], ?_⟩
    · exact fun r hr => .inl ((mem_append.mp hr).elim (hopened r) (huser r))
    · intro hfirst _
      simp [hfirst, hrole]
  · refine ⟨(if c.isFirstMessage ∧ message.role ≠ "user" then ["user"] else []) ++ [message.role],
      ?_, ?_, by simp, by simp [hrole], ?_⟩
    · rw [← append_assoc, ← roles_opened]
      simp [Converted.roles]
    · intro r hr
      rcases mem_append.mp hr with hr | hr
      · exact .inl (hopened r hr)
      · obtain rfl := mem_singleton.mp hr
        exact .inr ⟨rfl, hrole, htool⟩
    · intro hfirst _
      by_cases huser : message.role = "user" <;> simp [hfirst, huser]

variable (getBase64Data unmarshal)

theorem foldlM_roles (h : messages.foldlM (Converted.visit getBase64Data unmarshal) c = .ok c') :
    ∃ more, c'.roles = c.roles ++ more ∧
      (∀ r ∈ more, r = "user" ∨ ∃ m ∈ messages, r = m.role ∧ r ≠ "system" ∧ r ≠ "tool") ∧
      (∀ m ∈ messages, m.role ≠ "system" → m.role ≠ "tool" → m.role ∈ more) ∧
      ((∀ m ∈ messages, m.role = "system") → more = []) ∧
      (c.isFirstMessage → (∃ m ∈ messages, m.role ≠ "system") → more.head? = some "user") := by
  induction messages generalizing c with
  | nil =>
    rw [foldlM_nil, pure_eq_ok] at h
    exact ⟨[], by simp [h], by simp, by simp, by simp, by simp⟩
  | cons message messages ih =>
    rw [foldlM_cons, bind_eq_ok] at h
    obtain ⟨d, hd, hrest⟩ := h
    obtain ⟨added, hadded, hrole⟩ := visit_roles hd
    obtain ⟨more, hmore, honly, hown, hnone, hhead⟩ := ih hrest
    refine ⟨added ++ more, by rw [hmore, hadded, append_assoc], ?_, ?_, ?_, ?_⟩
    · intro r hr
      rcases mem_append.mp hr with hr | hr
      · exact (hrole.only r hr).imp_right fun hown => ⟨message, mem_cons_self, hown⟩
      · exact (honly r hr).imp_right fun ⟨m, hm, hown⟩ => ⟨m, mem_cons_of_mem _ hm, hown⟩
    · intro m hm hsystem htool
      rcases mem_cons.mp hm with rfl | hm
      · exact mem_append_left more (hrole.own hsystem htool)
      · exact mem_append_right added (hown m hm hsystem htool)
    · intro hall
      rw [hrole.none (hall message mem_cons_self),
        hnone fun m hm => hall m (mem_cons_of_mem message hm)]
      rfl
    · rintro hfirst ⟨m, hm, hm'⟩
      by_cases hsystem : message.role = "system"
      · rw [hrole.none hsystem]
        refine hhead ?_ ?_
        · rw [visit_isFirst hd, hfirst, hsystem]
          rfl
        · rcases mem_cons.mp hm with rfl | hm
          · exact absurd hsystem hm'
          · exact ⟨m, hm, hm'⟩
      · rw [head?_append, hrole.first hfirst hsystem]
        rfl

/-! ## The formatted messages -/

def Readable (message : Message) : Prop :=
  message.role = "assistant" → ∀ call ∈ message.parseToolCalls, (unmarshal call.arguments).isSome

variable {unmarshal}

theorem ready_of_bare {formatted : Message} (h : Readable unmarshal message)
    (hfilled : Filled formatted) (hrole : formatted.role = message.role)
    (hcalls : formatted.toolCalls = (bare message).toolCalls) : Ready unmarshal formatted := by
  refine ⟨hfilled, ?_, ?_⟩
  · intro hother
    rw [hrole] at hother
    rw [hcalls, bare, if_neg hother]
  · intro call hcall
    rw [Message.parseToolCalls, hcalls, bare] at hcall
    by_cases hassistant : message.role = "assistant"
    · rw [if_pos hassistant] at hcall
      exact h hassistant call hcall
    · rw [if_neg hassistant] at hcall
      simp at hcall

theorem ready_formatFrom (hlast : Ready unmarshal last) (hrest : ∀ m ∈ rest, Readable unmarshal m) :
    ∀ f ∈ formatFrom last rest, Ready unmarshal f := by
  induction rest generalizing last with
  | nil =>
    intro f hf
    obtain rfl := mem_singleton.mp hf
    exact hlast
  | cons next rest ih =>
    have hnext : Readable unmarshal next := hrest next mem_cons_self
    have htail : ∀ m ∈ rest, Readable unmarshal m := fun m hm => hrest m (mem_cons_of_mem next hm)
    rw [formatFrom]
    split
    · exact ih (ready_of_bare hnext (filled_join last next)
        (joinMessages_role last next) (joinMessages_toolCalls last next)) htail
    · intro f hf
      rcases mem_cons.mp hf with rfl | hf
      · exact hlast
      · exact ih (ready_of_bare hnext (filled_fill (bare next)) rfl rfl) htail f hf

private theorem mem_roles_formatFrom (last : Message) (rest : List Message) (role : String) :
    role ∈ (formatFrom last rest).map Message.role ↔ role ∈ (last :: rest).map Message.role := by
  induction rest generalizing last with
  | nil => rfl
  | cons next rest ih =>
    rw [formatFrom]
    split
    · next hmerges =>
      rw [ih]
      simp [joinMessages_role, hmerges.1]
    · have hrole : (fill (bare next)).role = next.role := rfl
      rw [map_cons, mem_cons, ih]
      simp [hrole]

private theorem find_role_formatFrom (last : Message) (rest : List Message) :
    ((formatFrom last rest).find? fun m => m.role ≠ "system").map Message.role =
      ((last :: rest).find? fun m => m.role ≠ "system").map Message.role := by
  induction rest generalizing last with
  | nil => rfl
  | cons next rest ih =>
    rw [formatFrom]
    split
    · next hmerges =>
      rw [ih, find?_cons, find?_cons, find?_cons, joinMessages_role, hmerges.1]
      by_cases hsystem : next.role = "system" <;>
        simp [hsystem, joinMessages_role, hmerges.1]
    · have hrole : (fill (bare next)).role = next.role := rfl
      rw [find?_cons]
      by_cases hsystem : last.role = "system"
      · have hih := ih (fill (bare next))
        rw [find?_cons, hrole] at hih
        by_cases hnext : next.role = "system" <;> simpa [hsystem, hnext, hrole] using hih
      · simp [hsystem]

theorem fill_mem_formatFrom (h : message.content = .items list) (rest : List Message) :
    fill (bare message) ∈ formatFrom (fill (bare message)) rest := by
  cases rest with
  | nil => exact mem_singleton_self _
  | cons next =>
    rw [formatFrom, if_neg (by simp [Merges, fill, bare, h, fillContent, isStringContent])]
    exact mem_cons_self

private theorem mem_formatFrom (h : message.content = .items list) (hmem : message ∈ rest) :
    fill (bare message) ∈ formatFrom last rest := by
  induction rest generalizing last with
  | nil => simp at hmem
  | cons next rest ih =>
    rw [formatFrom]
    rcases mem_cons.mp hmem with rfl | hmem
    · have hmerges : ¬ Merges last message := by simp [Merges, h, isStringContent]
      rw [if_neg hmerges]
      exact mem_cons_of_mem last (fill_mem_formatFrom h rest)
    · split
      · exact ih hmem
      · exact mem_cons_of_mem last (ih hmem)

private theorem mem_formatMessages (h : message.content = .items list) (hmem : message ∈ messages) :
    fill (bare message) ∈ formatMessages messages := by
  cases messages with
  | nil => simp at hmem
  | cons first rest =>
    rw [formatMessages_cons]
    rcases mem_cons.mp hmem with rfl | hmem
    · exact fill_mem_formatFrom h rest
    · exact mem_formatFrom h hmem

private theorem eq_of_mem_formatFrom (h : f ∈ formatFrom last rest) :
    isStringContent f.content ∨ f = last ∨ ∃ m ∈ rest, f = fill (bare m) := by
  induction rest generalizing last with
  | nil => exact .inr (.inl (mem_singleton.mp h))
  | cons next rest ih =>
    rw [formatFrom] at h
    split at h
    · rcases ih h with hstring | rfl | ⟨m, hm, hf⟩
      · exact .inl hstring
      · exact .inl (by rw [joinMessages_content]; rfl)
      · exact .inr (.inr ⟨m, mem_cons_of_mem next hm, hf⟩)
    · rcases mem_cons.mp h with rfl | h
      · exact .inr (.inl rfl)
      rcases ih h with hstring | rfl | ⟨m, hm, hf⟩
      · exact .inl hstring
      · exact .inr (.inr ⟨next, mem_cons_self, rfl⟩)
      · exact .inr (.inr ⟨m, mem_cons_of_mem next hm, hf⟩)

private theorem eq_of_mem_formatMessages (h : f ∈ formatMessages messages) :
    isStringContent f.content ∨ ∃ m ∈ messages, f = fill (bare m) := by
  cases messages with
  | nil => simp [formatMessages] at h
  | cons first =>
    rw [formatMessages_cons] at h
    rcases eq_of_mem_formatFrom h with hstring | rfl | ⟨m, hm, hf⟩
    · exact .inl hstring
    · exact .inr ⟨first, mem_cons_self, rfl⟩
    · exact .inr ⟨m, mem_cons_of_mem first hm, hf⟩

/-! ## System messages -/

def TextOnly (content : Content) : Prop := ∀ part ∈ content.parseContent, part.toFileSource = none

private theorem textOnly_of_mem (h : ∀ m ∈ messages, m.role = "system" → TextOnly m.content)
    (hf : f ∈ formatMessages messages) (hrole : f.role = "system") : TextOnly f.content := by
  have hstring : ∀ content, isStringContent content → TextOnly content := by
    intro content hcontent
    cases content with
    | null | items => cases hcontent
    | text => simp [TextOnly, Content.parseContent, toFileSource]
  rcases eq_of_mem_formatMessages hf with hcontent | ⟨m, hm, rfl⟩
  · exact hstring f.content hcontent
  have hm' := h m hm hrole
  cases hcontent : m.content with
  | null => exact hstring _ (by simp [fill, bare, hcontent, fillContent, isStringContent])
  | text s =>
    refine hstring _ ?_
    by_cases hs : s = "" <;> simp [fill, bare, hcontent, fillContent, isStringContent, hs]
  | items => simpa [fill, bare, hcontent, fillContent] using hm'

def textItems (parts : List MediaContent) : List (RequestItem α) :=
  ((parts.filterMap text?).filter fun s => s ≠ "").map (.text "system")

private theorem partItems_of_some (role : String) (h : part.toFileSource = some source) :
    partItems (α := α) getBase64Data role part = [.file (getBase64Data source)] := by
  cases part with
  | text => cases h
  | _ => simp [partItems, h]

theorem textItems_cons_of_some (h : part.toFileSource = some source) (parts : List MediaContent) :
    textItems (α := α) (part :: parts) = textItems parts := by
  cases part with
  | text => cases h
  | _ => rfl

theorem textItems_cons_of_none (h : part.toFileSource = none) (parts : List MediaContent) :
    textItems (part :: parts) =
      partItems (α := α) getBase64Data "system" part ++ textItems parts := by
  cases part with
  | text s => by_cases hs : s = "" <;> simp [textItems, text?, partItems, hs]
  | _ => simp [textItems, filterMap_cons, text?, partItems, h]

private theorem textItems_eq (h : ∀ part ∈ parts, part.toFileSource = none) :
    textItems parts = parts.flatMap (partItems (α := α) getBase64Data "system") := by
  induction parts with
  | nil => rfl
  | cons part parts ih =>
    rw [textItems_cons_of_none getBase64Data (h part mem_cons_self),
      ih fun p hp => h p (mem_cons_of_mem part hp), flatMap_cons]

private theorem weight_textItems (parts : List MediaContent) : weight (textItems (α := α) parts) +
        (parts.filter fun part => part.toFileSource.isSome).length =
      weight (parts.flatMap (partItems (α := α) getBase64Data "system")) := by
  induction parts with
  | nil => rfl
  | cons part parts ih =>
    rw [flatMap_cons, weight_append, ← ih]
    cases hsource : part.toFileSource with
    | none =>
      rw [textItems_cons_of_none getBase64Data hsource, weight_append,
        filter_cons_of_neg (by simp [hsource])]
      omega
    | some =>
      rw [textItems_cons_of_some hsource, partItems_of_some getBase64Data _ hsource,
        filter_cons_of_pos (by simp [hsource]), weight_cons, weight_nil,
        length_cons]
      simp only [tokens, length_cons, length_nil]
      omega

theorem systemItems_eq (h : Filled message) :
    systemItems (α := α) message = textItems message.content.parseContent := by
  unfold systemItems textItems systemBlocks
  cases hs : message.content with
  | null => exact absurd hs h.notNull
  | text => simp [Content.parseContent, text?, h.text hs, blockItem]
  | items => simp [Function.comp_def, blockItem]

variable (unmarshal)

theorem itemsOf_system (h : Filled message) (hrole : message.role = "system") :
    itemsOf getBase64Data unmarshal message =
      message.content.parseContent.flatMap (partItems getBase64Data "system") := by
  simp [itemsOf, itemsAs, hrole, contentItems_eq h, callItems]

/-! ## Requests that reach Claude whole -/

private theorem weight_flatMap_le {β : Type*} {f g : β → List (RequestItem α)} {inputs : List β}
    (h : ∀ b ∈ inputs, weight (f b) ≤ weight (g b)) :
    weight (inputs.flatMap f) ≤ weight (inputs.flatMap g) ∧
      (weight (inputs.flatMap f) = weight (inputs.flatMap g) →
        ∀ b ∈ inputs, weight (f b) = weight (g b)) := by
  induction inputs with
  | nil => simp
  | cons b inputs ih =>
    obtain ⟨hle, heq⟩ := ih fun c hc => h c (mem_cons_of_mem b hc)
    have hb := h b mem_cons_self
    simp only [flatMap_cons, weight_append]
    refine ⟨by omega, fun hsum c hc => ?_⟩
    rcases mem_cons.mp hc with rfl | hc
    · omega
    · exact heq (by omega) c hc

theorem weight_split (messages : List Message) (f g : Message → List (RequestItem α)) :
    weight (messages.flatMap fun m => if m.role = "system" then f m else []) +
        weight (messages.flatMap fun m => if m.role = "system" then [] else g m) =
      weight (messages.flatMap fun m => if m.role = "system" then f m else g m) := by
  induction messages with
  | nil => rfl
  | cons message messages ih =>
    simp only [flatMap_cons, weight_append, ← ih]
    split <;> simp <;> omega

section

variable (f : Message → List (RequestItem α))

theorem flatMap_filter_role :
    (messages.filter fun m => m.role = "system").flatMap f =
        (messages.flatMap fun m => if m.role = "system" then f m else []) ∧
      (messages.filter fun m => m.role ≠ "system").flatMap f =
        messages.flatMap fun m => if m.role = "system" then [] else f m := by
  induction messages with
  | nil => exact ⟨rfl, rfl⟩
  | cons message messages ih =>
    by_cases hrole : message.role = "system" <;> simpa [hrole] using ih

end

def shownItems (message : Message) : List (RequestItem α) :=
  if message.role = "system" then systemItems message
  else itemsOf getBase64Data unmarshal message

theorem weight_shownItems (h : Filled message) :
    weight (shownItems getBase64Data unmarshal message) ≤
        weight (itemsOf getBase64Data unmarshal message) ∧
      (weight (shownItems getBase64Data unmarshal message) =
          weight (itemsOf getBase64Data unmarshal message) →
        message.role = "system" → TextOnly message.content) := by
  unfold shownItems
  by_cases hrole : message.role = "system"
  · rw [if_pos hrole, systemItems_eq h, itemsOf_system getBase64Data unmarshal h hrole]
    have hweight := weight_textItems (α := α) getBase64Data message.content.parseContent
    refine ⟨by omega, fun heq _ part hpart => ?_⟩
    have hnone : (message.content.parseContent.filter
        fun part => part.toFileSource.isSome) = [] := eq_nil_of_length_eq_zero (by omega)
    have hfile := filter_eq_nil_iff.mp hnone part hpart
    simpa using hfile
  · rw [if_neg hrole]
    exact ⟨Nat.le_refl _, fun _ hsystem => absurd hsystem hrole⟩

theorem dueItems_eq (h : ∀ m ∈ messages, m.role ≠ "") :
    ∀ m ∈ messages, dueItems getBase64Data unmarshal m = itemsOf getBase64Data unmarshal m := by
  intro m hm
  rw [dueItems, roleOf, if_neg (h m hm), itemsOf]

private theorem mem_roles_formatMessages (messages : List Message) (role : String) :
    role ∈ (formatMessages messages).map Message.role ↔ role ∈ messages.map Message.role := by
  cases messages with
  | nil => rfl
  | cons =>
    rw [formatMessages_cons, mem_roles_formatFrom]
    rfl

theorem ready_formatMessages (h : ∀ m ∈ messages, Readable unmarshal m) :
    ∀ f ∈ formatMessages messages, Ready unmarshal f := by
  cases messages with
  | nil => simp [formatMessages]
  | cons first =>
    rw [formatMessages_cons]
    exact ready_formatFrom
      (ready_of_bare (h first mem_cons_self) (filled_fill (bare first)) rfl rfl)
      fun m hm => h m (mem_cons_of_mem first hm)

private theorem weight_formatMessages (messages : List Message) :
    weight ((formatMessages messages).flatMap (itemsOf getBase64Data unmarshal)) ≤
        weight (messages.flatMap (itemsOf getBase64Data unmarshal)) ∧
      (weight ((formatMessages messages).flatMap (itemsOf getBase64Data unmarshal)) =
          weight (messages.flatMap (itemsOf getBase64Data unmarshal)) →
        ∀ first rest, messages = first :: rest →
          CleanJoins first.content.stringContent first rest) := by
  cases messages with
  | nil => exact ⟨Nat.le_refl _, fun _ first rest h => by cases h⟩
  | cons first rest =>
    have hle := weight_formatFrom getBase64Data unmarshal (filled_fill (bare first)) rest
    have hfill := weight_fill getBase64Data unmarshal first
    rw [formatMessages_cons, flatMap_cons, weight_append]
    refine ⟨by omega, fun heq first' rest' hmessages => ?_⟩
    cases hmessages
    exact cleanJoins_of_weight getBase64Data unmarshal (carries_fill first) (by omega)

theorem glued_opening (h : ∀ m ∈ messages, m.role ≠ "") :
    Glued Shows SpaceBetween (opening messages : List (RequestItem α))
      (openingOf (formatMessages messages)) := by
  have hfind : ((formatMessages messages).find? fun m => m.role ≠ "system").map Message.role =
      (messages.find? fun m => m.role ≠ "system").map Message.role := by
    cases messages with
    | nil => rfl
    | cons first =>
      have hrole : (fill (bare first)).role = first.role := rfl
      rw [formatMessages_cons, find_role_formatFrom, find?_cons, find?_cons, hrole]
      by_cases hsystem : first.role = "system" <;> simp [hsystem, hrole]
  unfold opening openingOf
  cases hfirst : messages.find? fun m => m.role ≠ "system" with
  | none =>
    rw [hfirst] at hfind
    rw [Option.map_eq_none_iff.mp hfind]
    exact .nil
  | some first =>
    rw [hfirst, Option.map_some, Option.map_eq_some_iff] at hfind
    obtain ⟨first', hfirst', hrole⟩ := hfind
    rw [hfirst']
    have hne := h first (mem_of_find?_eq_some hfirst)
    simp only [openingAt, roleOf, if_neg hne, hrole]
    by_cases huser : first.role = "user"
    · simpa [huser] using Glued.nil
    · simpa [huser] using .keep (.dots "user") .nil

structure InDomain (message : Message) : Prop where
  role : message.role ∈ ["", "system", "user", "assistant", "tool"]
  readable : Readable unmarshal message

/-- What the conversion gives, read from the formatted messages. -/
structure ReadsBack (messages : List Message) (out : ClaudeRequest α) : Prop where
  system : out.system.map (blockItem "system") =
    (formatMessages messages).flatMap fun m => if m.role = "system" then systemItems m else []
  turns : out.messages.flatMap items =
    openingOf (formatMessages messages) ++ (formatMessages messages).flatMap fun m =>
      if m.role = "system" then [] else itemsOf getBase64Data unmarshal m
  only : ∀ m ∈ out.messages, m.role = "user" ∨
    ∃ m' ∈ messages, m.role = m'.role ∧ m.role ≠ "system" ∧ m.role ≠ "tool"
  own : ∀ m ∈ messages, m.role ≠ "system" → m.role ≠ "tool" → ∃ m' ∈ out.messages, m'.role = m.role
  none : (∀ m ∈ messages, m.role = "system") → out.messages = []
  first : (∃ m ∈ messages, m.role ≠ "system") →
    ∃ first rest, out.messages = first :: rest ∧ first.role = "user"

theorem readsBack (h : requestOpenAI2ClaudeMessage getBase64Data unmarshal messages = .ok out)
    (hdomain : ∀ m ∈ messages, Readable unmarshal m) :
    ReadsBack getBase64Data unmarshal messages out := by
  obtain ⟨c, hc, hreturn⟩ := bind_eq_ok.mp h
  obtain rfl := pure_eq_ok.mp hreturn
  have hready := ready_formatMessages unmarshal hdomain
  obtain ⟨more, hmore, honly, hown, hnone, hhead⟩ := foldlM_roles getBase64Data unmarshal hc
  have hroles : c.claudeMessages.map role = more := hmore
  have hmem := mem_roles_formatMessages messages
  refine ⟨?_, ?_, ?_, ?_, ?_, ?_⟩
  · simpa using foldlM_systemMessages getBase64Data unmarshal hc
  · simpa using foldlM_claudeMessages getBase64Data unmarshal hready hc
  · intro m hm
    have hr : m.role ∈ more := hroles ▸ mem_map_of_mem hm
    refine (honly m.role hr).imp_right ?_
    rintro ⟨f, hf, hrole, hother⟩
    obtain ⟨m', hm', hm''⟩ := mem_map.mp ((hmem f.role).mp (mem_map_of_mem hf))
    exact ⟨m', hm', hrole.trans hm''.symm, hother⟩
  · intro m hm hsystem htool
    obtain ⟨f, hf, hrole⟩ := mem_map.mp ((hmem m.role).mpr (mem_map_of_mem hm))
    have hr := hown f hf (hrole ▸ hsystem) (hrole ▸ htool)
    rw [← hroles, hrole] at hr
    obtain ⟨m', hm', hm''⟩ := mem_map.mp hr
    exact ⟨m', hm', hm''⟩
  · intro hall
    have hformatted : ∀ f ∈ formatMessages messages, f.role = "system" := by
      intro f hf
      obtain ⟨m, hm, hrole⟩ := mem_map.mp ((hmem f.role).mp (mem_map_of_mem hf))
      rw [← hrole, hall m hm]
    rw [hnone hformatted] at hroles
    exact map_eq_nil_iff.mp hroles
  · rintro ⟨m, hm, hsystem⟩
    obtain ⟨f, hf, hrole⟩ := mem_map.mp ((hmem m.role).mpr (mem_map_of_mem hm))
    have huser := hhead rfl ⟨f, hf, hrole ▸ hsystem⟩
    rw [← hroles, head?_map, Option.map_eq_some_iff] at huser
    obtain ⟨first, hfirst, huser⟩ := huser
    obtain ⟨rest, hrest⟩ := head?_eq_some_iff.mp hfirst
    exact ⟨first, rest, hrest, huser⟩

section

variable (hreads : ReadsBack getBase64Data unmarshal messages out)
include hreads

section

variable (hready : ∀ f ∈ formatMessages messages, Ready unmarshal f)
include hready

theorem whole_of_carried (hdomain : ∀ m ∈ messages, InDomain unmarshal m) (h : Carried messages) :
    Whole getBase64Data unmarshal messages out := by
  have hdue := dueItems_eq getBase64Data unmarshal h.roles
  have hglued : ∀ kind : String → Bool, Glued Shows SpaceBetween
      ((messages.filter fun m => kind m.role).flatMap (dueItems getBase64Data unmarshal))
      (((formatMessages messages).filter fun m => kind m.role).flatMap
        (itemsOf getBase64Data unmarshal)) := by
    intro kind
    have hsame : (messages.filter fun m => kind m.role).flatMap (dueItems getBase64Data unmarshal) =
        (messages.filter fun m => kind m.role).flatMap (itemsOf getBase64Data unmarshal) :=
      flatMap_congr fun m hm => hdue m (mem_filter.mp hm).1
    rw [hsame]
    cases messages with
    | nil => exact .nil
    | cons first rest =>
      have hall := glued_formatFrom getBase64Data unmarshal kind (carries_fill first)
        (h.joins first rest rfl) (glued_fill first)
      have hrole : (fill (bare first)).role = first.role := rfl
      rw [hrole] at hall
      rw [formatMessages_cons]
      by_cases hkind : kind first.role <;> simpa [hkind] using hall
  refine ⟨hreads.first h.turn, ?_, ?_, ?_⟩
  · intro m hm
    rcases hreads.only m hm with huser | ⟨m', hm', hrole, hsystem, htool⟩
    · exact .inl huser
    have hmem := (hdomain m' hm').role
    rw [← hrole] at hmem
    have hne : m.role ≠ "" := hrole ▸ h.roles m' hm'
    simpa [hne, hsystem, htool] using hmem
  · -- the texts are all that a system message has
    have hsystem : ∀ f ∈ formatMessages messages, f.role = "system" →
        systemItems f = itemsOf getBase64Data unmarshal f := by
      intro f hf hrole
      have hfilled := (hready f hf).filled
      have htext := textOnly_of_mem h.system hf hrole
      rw [systemItems_eq hfilled, itemsOf_system getBase64Data unmarshal hfilled hrole,
        textItems_eq getBase64Data htext]
    have hgiven : ((formatMessages messages).filter fun m => decide (m.role = "system")).flatMap
        (itemsOf getBase64Data unmarshal) = out.system.map (blockItem "system") := by
      rw [hreads.system, (flatMap_filter_role _).1]
      refine flatMap_congr fun f hf => ?_
      split
      · next hrole => exact (hsystem f hf hrole).symm
      · rfl
    rw [← hgiven]
    exact hglued fun role => decide (role = "system")
  · rw [hreads.turns, ← (flatMap_filter_role _).2]
    exact (glued_opening h.roles).append (hglued fun role => decide (role ≠ "system"))

theorem carried_of_whole (h : Whole getBase64Data unmarshal messages out) : Carried messages := by
  have hroles : ∀ m ∈ messages, m.role ≠ "" := by
    intro m hm hempty
    obtain ⟨m', hm', hrole⟩ := hreads.own m hm (by simp [hempty]) (by simp [hempty])
    rcases h.roles m' hm' with hr | hr <;> simp [hrole, hempty] at hr
  have hturn : ∃ m ∈ messages, m.role ≠ "system" := by
    by_contra hnone
    push Not at hnone
    obtain ⟨first, rest, hfirst, -⟩ := h.start
    rw [hreads.none hnone] at hfirst
    cases hfirst
  have hdue : messages.flatMap (dueItems getBase64Data unmarshal) =
      messages.flatMap (itemsOf getBase64Data unmarshal) :=
    flatMap_congr (dueItems_eq getBase64Data unmarshal hroles)
  -- as much is read as was due, although each pass can only lose something
  have hweight : weight ((formatMessages messages).flatMap (shownItems getBase64Data unmarshal)) =
      weight (messages.flatMap (itemsOf getBase64Data unmarshal)) := by
    have hsystem := weight_eq_of_glued h.system
    have hturns := weight_eq_of_glued h.turns
    have hopening := weight_eq_of_glued (glued_opening (α := α) hroles)
    rw [hreads.system, (flatMap_filter_role _).1] at hsystem
    rw [hreads.turns, (flatMap_filter_role _).2, weight_append, weight_append] at hturns
    have hgiven := weight_split (formatMessages messages) systemItems
      (itemsOf getBase64Data unmarshal)
    have hwanted := weight_split messages (dueItems getBase64Data unmarshal)
      (dueItems getBase64Data unmarshal)
    simp only [ite_self, hdue] at hwanted
    unfold shownItems
    omega
  obtain ⟨hshown, hshown'⟩ := weight_flatMap_le fun f hf =>
    (weight_shownItems getBase64Data unmarshal (hready f hf).filled).1
  obtain ⟨hformat, hformat'⟩ := weight_formatMessages getBase64Data unmarshal messages
  refine ⟨hroles, hturn, ?_, hformat' (by omega)⟩
  intro m hm hsystem
  cases hcontent : m.content with
  | null => simp [Content.parseContent]
  | text => simp [Content.parseContent, toFileSource]
  | items =>
    have hf := mem_formatMessages hcontent hm
    have htext := (weight_shownItems getBase64Data unmarshal (hready _ hf).filled).2
      (hshown' (by omega) _ hf) hsystem
    simpa [TextOnly, fill, bare, hcontent, fillContent] using htext

end

end

/-- The request reaches Claude whole exactly if no role is absent, there is a
message besides those of the system, which have only texts, and nothing is lost
where messages are joined. -/
theorem claude_request_whole_iff {messages : List Message} {out : ClaudeRequest α}
    (h : requestOpenAI2ClaudeMessage getBase64Data unmarshal messages = .ok out)
    (hdomain : ∀ m ∈ messages, InDomain unmarshal m) :
    Whole getBase64Data unmarshal messages out ↔ Carried messages := by
  have hreads := readsBack getBase64Data unmarshal h fun m hm => (hdomain m hm).readable
  have hready := ready_formatMessages unmarshal fun m hm => (hdomain m hm).readable
  exact ⟨carried_of_whole getBase64Data unmarshal hreads hready,
    whole_of_carried getBase64Data unmarshal hreads hready hdomain⟩

end

def lookingMessages : List Message :=
  [{ role := "system", content := .text "Be brief." },
   { role := "user", content := .items [.text (some "What is"),
       .imageUrl (.string "https://x/sky.png")] },
   { role := "user", content := .text "this?" },
   { role := "user", content := .text "Please look." },
   { role := "assistant"
     toolCalls := some [{ id := "c1", name := "look", arguments := "\x7b\x7d" }] },
   { role := "tool", toolCallId := "c1", content := .text "A sky." }]

theorem claude_request_whole_looking :
    (∀ m ∈ lookingMessages, InDomain some m) ∧
      ∃ out, requestOpenAI2ClaudeMessage (fun _ => .ok ("AA==", "image/png")) some
          lookingMessages = .ok out ∧
        Whole (fun _ => .ok ("AA==", "image/png")) some lookingMessages out := by
  have hdomain : ∀ m ∈ lookingMessages, InDomain some m := by
    intro m hm
    refine ⟨?_, fun _ _ _ => rfl⟩
    revert m
    decide
  have hcarried : Carried lookingMessages := by
    refine ⟨by decide, by decide, by decide, ?_⟩
    intro first rest hmessages
    cases hmessages
    decide
  refine ⟨hdomain, _, rfl, ?_⟩
  exact (claude_request_whole_iff (fun _ => .ok ("AA==", "image/png")) some rfl hdomain).mpr
    hcarried

/-- The tool call of the first assistant message is lost when the second one is
joined to it. -/
theorem joined_tool_call_lost :
    requestOpenAI2ClaudeMessage (fun _ => .error "no files") some
        [{ role := "user", content := .text "What is this?" },
         { role := "assistant",
           toolCalls := some [{ id := "c1", name := "look", arguments := "\x7b\x7d" }] },
         { role := "assistant", content := .text "I looked." }] =
      .ok
        { system := []
          messages :=
            [{ role := "user", content := .text "What is this?" },
             { role := "assistant", content := .text "... I looked." }] } ∧
      ¬ Whole (fun _ => .error "no files") some
        [{ role := "user", content := .text "What is this?" },
         { role := "assistant",
           toolCalls := some [{ id := "c1", name := "look", arguments := "\x7b\x7d" }] },
         { role := "assistant", content := .text "I looked." }]
        { system := []
          messages :=
            [{ role := "user", content := .text "What is this?" },
             { role := "assistant", content := .text "... I looked." }] } := by
  refine ⟨by decide, fun h => ?_⟩
  have hweight := weight_eq_of_glued h.turns
  revert hweight
  decide

end NewApi.RelayClaude
