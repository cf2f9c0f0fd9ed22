import NewApi.Claude.Stream
import NewApi.Foundation.Joins
import NewApi.Foundation.Run

/-!
# The content of the Claude events

Which text, thinking and tool arguments of a chunk stream reach the client.
-/

namespace NewApi.Claude

open Foundation List Dto Emitter ChoiceDelta ClaudeEvent Within String

/-! ## Content by kind -/

inductive ContentKind where
  | text
  | thinking
  | input (index : Int)
  deriving DecidableEq

abbrev Piece := ContentKind × String

def content (kind : ContentKind) (pieces : List Piece) : String :=
  join ((pieces.filter fun p => p.1 = kind).map Prod.snd)

variable (kind : ContentKind)

@[simp] theorem content_nil : content kind [] = "" := rfl

@[simp] theorem content_cons (p : Piece) (pieces : List Piece) :
    content kind (p :: pieces) = (if p.1 = kind then p.2 else "") ++ content kind pieces := by
  by_cases h : p.1 = kind <;> simp [content, h]

@[simp] theorem content_append (first second : List Piece) :
    content kind (first ++ second) = content kind first ++ content kind second := by
  simp [content]

def argumentPieces : Int → List ToolCallResponse → List Piece
  | _, [] => []
  | position, toolCall :: toolCalls =>
    (.input (toolCall.offset position), toolCall.arguments) ::
      argumentPieces (position + 1) toolCalls

section

variable (d : ChoiceDelta)

def ChoiceDelta.pieces : List Piece :=
  (.text, d.getContentString) :: (.thinking, d.getReasoningContent) :: argumentPieces 0 d.toolCalls

/-- What an event carries.  The blocks of the tool calls are counted from `base`. -/
def ClaudeEvent.piece (base : Int) : ClaudeEvent → Option Piece
  | .contentBlockDelta _ (.textDelta text) => some (.text, text)
  | .contentBlockDelta _ (.thinkingDelta thinking) => some (.thinking, thinking)
  | .contentBlockDelta index (.inputJsonDelta partialJson) =>
    some (.input (index - base), partialJson)
  | _ => none

def piecesOf (base : Int) (events : List ClaudeEvent) : List Piece := events.filterMap (piece base)

/-- The pieces of a run, those of a delivery counted from the base that the
converter has after it. -/
def streamPieces (usage : Usage) : ConvertInfo → List Delivery → List Piece
  | _, [] => []
  | info, d :: ds =>
    piecesOf (deliver usage d info).2.toolCallBaseIndex (deliver usage d info).1 ++
      streamPieces usage (deliver usage d info).2 ds

def oaiStreamPieces (estimatePromptTokens : Int) (usage : Usage) (chunks : List Chunk) :
    List Piece := streamPieces usage (.start estimatePromptTokens) (deliveries chunks)

/-! ## What a delivery converts -/

def ChoiceDelta.contentPieces : List Piece :=
  if d.getReasoningContent ≠ "" then [(.thinking, d.getReasoningContent)]
  else if d.getContentString ≠ "" then [(.text, d.getContentString)]
  else []

def ChoiceDelta.firstPieces : List Piece :=
  (d.toolCalls.take 1).map (fun toolCall => (.input 0, toolCall.arguments)) ++ d.contentPieces

def ChoiceDelta.laterPieces : List Piece :=
  if d.toolCalls ≠ [] then argumentPieces 0 d.toolCalls else d.contentPieces

end

def Delivery.count (info : ConvertInfo) : Delivery → Int
  | .next _ => info.sendResponseCount + 1
  | .last _ => info.sendResponseCount

def convertedPieces (info : ConvertInfo) (d : Delivery) : List Piece :=
  if info.done = true then []
  else if d.count info = 1 then d.chunk.delta.firstPieces
  else if d.chunk.reason ≠ "" ∧ d.chunk.usage = none then []
  else d.chunk.delta.laterPieces

/-! ### Events without content -/

def Quiet (base : Int) (e : ClaudeEvent) : Prop := e.piece base = none

variable (base : Int)

@[simp] theorem piecesOf_nil : piecesOf base [] = [] := rfl

@[simp] theorem piecesOf_messageStart (id model : String) (inputTokens : Int)
    (events : List ClaudeEvent) :
    piecesOf base (.messageStart id model inputTokens :: events) = piecesOf base events := rfl

@[simp] theorem piecesOf_start (index : Int) (block : ContentBlock) (events : List ClaudeEvent) :
    piecesOf base (.contentBlockStart index block :: events) = piecesOf base events := rfl

@[simp] theorem piecesOf_input (index : Int) (json : String) (events : List ClaudeEvent) :
    piecesOf base (.contentBlockDelta index (.inputJsonDelta json) :: events) =
      (.input (index - base), json) :: piecesOf base events := rfl

private theorem piecesOf_cons (e : ClaudeEvent) (events : List ClaudeEvent) :
    piecesOf base (e :: events) = (e.piece base).toList ++ piecesOf base events := by
  unfold piecesOf
  rw [filterMap_cons]
  cases e.piece base <;> rfl

theorem piecesOf_append (first second : List ClaudeEvent) :
    piecesOf base (first ++ second) = piecesOf base first ++ piecesOf base second :=
  filterMap_append

theorem piecesOf_quiet {base : Int} {events : List ClaudeEvent} (h : ∀ e ∈ events, Quiet base e) :
    piecesOf base events = [] := filterMap_eq_nil_iff.mpr h

theorem quiet_finishMessage (usage : Option Usage) (stopReason : String) :
    Emits (Quiet base) (finishMessage usage stopReason) :=
  emits_finishMessage usage (fun _ => rfl) (fun _ => rfl) rfl

/-! ### Tool calls -/

variable (position : Int)

private theorem content_toolFragment (toolCall : ToolCallResponse) (info : ConvertInfo) :
    content kind (piecesOf info.toolCallBaseIndex (toolFragment position toolCall info).1) =
      content kind [(.input (toolCall.offset position), toolCall.arguments)] := by
  by_cases hname : toolCall.name = "" <;> by_cases harguments : toolCall.arguments = "" <;>
    simp [toolFragment, hname, harguments]

private theorem toolFragments_base (toolCalls : List ToolCallResponse) (info : ConvertInfo) :
    (toolFragments position toolCalls info).2.toolCallBaseIndex = info.toolCallBaseIndex := by
  induction toolCalls generalizing position info with
  | nil => rfl
  | cons toolCall toolCalls ih => exact ih (position + 1) _

private theorem content_toolFragments (toolCalls : List ToolCallResponse) (info : ConvertInfo) :
    content kind (piecesOf info.toolCallBaseIndex (toolFragments position toolCalls info).1) =
      content kind (argumentPieces position toolCalls) := by
  induction toolCalls generalizing position info with
  | nil => rfl
  | cons toolCall toolCalls ih =>
    have hrest := ih (position + 1) (toolFragment position toolCall info).2
    have hfirst := content_toolFragment kind position toolCall info
    rw [content_cons, content_nil, append_empty] at hfirst
    simp only [toolFragments, andThen, piecesOf_append, content_append, argumentPieces,
      content_cons, hfirst]
    rw [← hrest]
    rfl

/-! ### Text and thinking -/

theorem piecesOf_startBlock (kind : LastMessageType) (block : ContentBlock) (info : ConvertInfo) :
    piecesOf base (startBlock kind block info).1 = [] :=
  piecesOf_quiet (emits_startBlock (fun _ => rfl) (fun _ => rfl) kind info)

theorem piecesOf_firstBlock (kind : LastMessageType) (block : ContentBlock) (delta : BlockDelta)
    (info : ConvertInfo) :
    piecesOf base (firstBlock kind block delta info).1 =
      piecesOf base [.contentBlockDelta (firstBlock kind block delta info).2.index delta] := by
  unfold firstBlock
  simp only [andThen, piecesOf_append]
  rw [piecesOf_quiet]
  · rfl
  · split
    · simp
    · exact emits_advance (fun _ => rfl) info

private theorem piecesOf_firstContent (d : ChoiceDelta) (info : ConvertInfo) :
    piecesOf base (firstContent d info).1 = d.contentPieces := by
  unfold firstContent contentPieces
  split
  · exact piecesOf_firstBlock ..
  split
  · exact piecesOf_firstBlock ..
  · rfl

theorem content_laterContent (d : ChoiceDelta) (info : ConvertInfo) :
    content kind (piecesOf (laterContent d info).2.toolCallBaseIndex (laterContent d info).1) =
      content kind d.laterPieces := by
  unfold laterContent laterPieces
  by_cases htools : d.toolCalls = []
  · simp only [htools, ne_eq, not_true_eq_false, if_false]
    unfold contentPieces
    split
    · simp only [andThen, piecesOf_append, piecesOf_startBlock]
      rfl
    · split
      · simp only [andThen, piecesOf_append, piecesOf_startBlock]
        rfl
      · rfl
  · simp only [htools, ne_eq, not_false_eq_true, if_true, andThen, leaveTools, piecesOf_append,
      toolFragments_base, content_append]
    rw [piecesOf_quiet (emits_enterTools (fun _ => rfl) info), content_toolFragments]
    simp [piecesOf]

/-! ### The first chunk -/

private theorem content_firstToolCalls {base : Int} {toolCalls : List ToolCallResponse}
    (hbase : toolCalls ≠ [] → base = 0) (info : ConvertInfo) :
    content kind (piecesOf base (firstToolCalls toolCalls info).1) =
      content kind ((toolCalls.take 1).map fun toolCall => (.input 0, toolCall.arguments)) := by
  cases toolCalls with
  | nil => rfl
  | cons toolCall =>
    obtain rfl := hbase (cons_ne_nil _ _)
    by_cases h : toolCall.arguments = "" <;> simp [firstToolCalls, h]

theorem firstContent_base (d : ChoiceDelta) {info : ConvertInfo} (h : info.toolCallBaseIndex = 0) :
    (firstContent d info).2.toolCallBaseIndex = 0 := by
  have hblock : ∀ kind block delta, (firstBlock kind block delta info).2.toolCallBaseIndex = 0 := by
    intro kind block delta
    simp only [firstBlock, andThen]
    split
    · exact h
    unfold stopOpenBlocksAndAdvance
    split
    · exact h
    · rfl
    · exact h
  unfold firstContent
  split
  · exact hblock ..
  split
  · exact hblock ..
  · exact h

variable (chunk : Chunk) (choice : StreamChoice) (info : ConvertInfo)

private theorem firstFinish_base :
    (firstFinish chunk choice info).2.toolCallBaseIndex = info.toolCallBaseIndex := by
  unfold firstFinish
  split <;> rfl

private theorem quiet_firstFinish : Emits (Quiet base) (firstFinish chunk choice) := by
  intro info
  unfold firstFinish
  split
  · exact quiet_finishMessage base _ _ _
  · simp

private theorem content_firstChunk :
    content kind (piecesOf (firstChunk chunk info).2.toolCallBaseIndex (firstChunk chunk info).1) =
      content kind chunk.delta.firstPieces := by
  obtain ⟨id, model, choices, usage⟩ := chunk
  cases choices with
  | nil => rfl
  | cons choice choices =>
    have hbase : choice.delta.toolCalls ≠ [] →
        (firstChunk ⟨id, model, choice :: choices, usage⟩ info).2.toolCallBaseIndex = 0 := by
      intro htools
      obtain ⟨toolCall, toolCalls, htools⟩ := exists_cons_of_ne_nil htools
      simp only [firstChunk, andThen, firstFinish_base]
      apply firstContent_base
      rw [htools]
      rfl
    generalize (firstChunk ⟨id, model, choice :: choices, usage⟩ info).2.toolCallBaseIndex =
      base at hbase ⊢
    simp only [firstChunk, andThen, piecesOf_append, content_append,
      content_firstToolCalls kind hbase, piecesOf_firstContent,
      piecesOf_quiet (quiet_firstFinish base _ _ _)]
    simp [sendMessageStart, emit, Chunk.delta, firstPieces]

/-! ### A delivery -/

private theorem content_streamResponse :
    content kind (piecesOf (streamResponseOpenAI2Claude chunk info).2.toolCallBaseIndex
        (streamResponseOpenAI2Claude chunk info).1) =
      content kind
        (if info.done = true then []
        else if info.sendResponseCount = 1 then chunk.delta.firstPieces
        else if chunk.reason ≠ "" ∧ chunk.usage = none then []
        else chunk.delta.laterPieces) := by
  unfold streamResponseOpenAI2Claude
  by_cases hdone : info.done = true
  · simp [hdone]
  by_cases hcount : info.sendResponseCount = 1
  · simp [hdone, hcount, content_firstChunk]
  rw [if_neg hdone, if_neg hcount, if_neg hdone, if_neg hcount]
  obtain ⟨id, model, choices, usage⟩ := chunk
  cases choices with
  | nil =>
    unfold usageOnlyChunk
    dsimp only
    split
    · rfl
    · rw [piecesOf_quiet (quiet_finishMessage _ _ _ _)]
      rfl
  | cons choice choices =>
    unfold laterChunk
    dsimp only [Chunk.reason, Chunk.delta]
    by_cases hreason : choice.reason = ""
    · simp [hreason, content_laterContent]
    cases usage with
    | none => simp [hreason]
    | some =>
      have hcontent := content_laterContent kind choice.delta
        { info with finishReason := choice.reason }
      simp only [hreason, if_false, andThen, piecesOf_append, content_append,
        piecesOf_quiet (quiet_finishMessage _ _ _ _)]
      simpa [finishMessage] using hcontent

theorem content_deliver (usage : Usage) (kind : ContentKind) (d : Delivery) (info : ConvertInfo) :
    content kind (piecesOf (deliver usage d info).2.toolCallBaseIndex (deliver usage d info).1) =
      content kind (convertedPieces info d) := by
  cases d with
  | next | last => exact content_streamResponse ..

/-! ## Pieces that are dropped -/

namespace ChoiceDelta

section

variable (d : ChoiceDelta)

def Silent : Prop :=
  d.getContentString = "" ∧ d.getReasoningContent = "" ∧ ∀ t ∈ d.toolCalls, t.arguments = ""

def OneKind : Prop := d.getReasoningContent = "" ∨ d.getContentString = ""

def FitsFirst : Prop :=
  d.OneKind ∧ (∀ t ∈ d.toolCalls.take 1, t.arguments = "" ∨ t.offset 0 = 0) ∧
    ∀ t ∈ d.toolCalls.drop 1, t.arguments = ""

def FitsLater : Prop :=
  d.OneKind ∧ (d.toolCalls = [] ∨ (d.getReasoningContent = "" ∧ d.getContentString = ""))

end

end ChoiceDelta

/-- The converter passes on all that the chunk holds. -/
def NothingDropped (info : ConvertInfo) (d : Delivery) : Prop :=
  if info.done = true then d.chunk.delta.Silent
  else if d.count info = 1 then d.chunk.delta.FitsFirst
  else if d.chunk.reason ≠ "" ∧ d.chunk.usage = none then d.chunk.delta.Silent
  else d.chunk.delta.FitsLater

section

variable (d : ChoiceDelta) (index position : Int) (toolCalls : List ToolCallResponse)

@[simp] theorem content_argumentPieces :
    content .text (argumentPieces position toolCalls) = "" ∧
      content .thinking (argumentPieces position toolCalls) = "" := by
  induction toolCalls generalizing position with
  | nil => exact ⟨rfl, rfl⟩
  | cons toolCall toolCalls ih => simp [argumentPieces, ih]

@[simp] theorem content_text_pieces : content .text d.pieces = d.getContentString := by
  simp [pieces]

@[simp] theorem content_thinking_pieces : content .thinking d.pieces = d.getReasoningContent := by
  simp [pieces]

@[simp] theorem content_input_pieces :
    content (.input index) d.pieces = content (.input index) (argumentPieces 0 d.toolCalls) := by
  simp [pieces]

@[simp] theorem content_contentPieces :
    content .text d.contentPieces =
        (if d.getReasoningContent ≠ "" then "" else d.getContentString) ∧
      content .thinking d.contentPieces = d.getReasoningContent := by
  unfold contentPieces
  split_ifs <;> simp_all

@[simp] theorem content_input_contentPieces : content (.input index) d.contentPieces = "" := by
  unfold contentPieces
  split_ifs <;> simp

variable {d position toolCalls}

theorem content_argumentPieces_eq_empty_iff :
    (∀ index, content (.input index) (argumentPieces position toolCalls) = "") ↔
      ∀ t ∈ toolCalls, t.arguments = "" := by
  induction toolCalls generalizing position with
  | nil => simp [argumentPieces]
  | cons toolCall toolCalls ih =>
    have hsplit : ∀ index,
        content (.input index) (argumentPieces position (toolCall :: toolCalls)) = "" ↔
          (toolCall.offset position = index → toolCall.arguments = "") ∧
          content (.input index) (argumentPieces (position + 1) toolCalls) = "" := by
      intro index
      simp [argumentPieces]
    simp only [hsplit, forall_and, ih, mem_cons, forall_eq_or_imp]
    simp

theorem forall_kind {p : ContentKind → Prop} :
    (∀ kind, p kind) ↔ p .text ∧ p .thinking ∧ ∀ index, p (.input index) := by
  refine ⟨fun h => ⟨h _, h _, fun _ => h _⟩, ?_⟩
  rintro ⟨htext, hthinking, hinput⟩ (_ | _ | index)
  · exact htext
  · exact hthinking
  · exact hinput index

theorem silent_iff : (∀ kind, content kind [] = content kind d.pieces) ↔ d.Silent := by
  simp only [content_nil, forall_kind, content_text_pieces, content_thinking_pieces,
    content_input_pieces, eq_comm (a := ""), content_argumentPieces_eq_empty_iff]
  rfl

theorem oneKind_iff : content .text d.contentPieces = d.getContentString ↔ d.OneKind := by
  unfold ChoiceDelta.OneKind
  by_cases h : d.getReasoningContent = "" <;> simp [h]

private theorem first_input_iff {arguments : String} {offset : Int} {rest : Int → String} :
    (∀ index, (if 0 = index then arguments else "") =
        (if offset = index then arguments else "") ++ rest index) ↔
      (arguments = "" ∨ offset = 0) ∧ ∀ index, rest index = "" := by
  by_cases hempty : arguments = ""
  · simp [hempty]
  by_cases hoffset : offset = 0
  · subst hoffset
    simp only [or_true, true_and]
    refine forall_congr' fun index => ?_
    have hself := @String.append_right_inj (if 0 = index then arguments else "") (rest index) ""
    rw [append_empty] at hself
    rw [eq_comm, hself]
  · refine iff_of_false ?_ (by simp [hempty, hoffset])
    intro h
    have hkind := h offset
    simp [Ne.symm hoffset, hempty] at hkind

private theorem content_firstPieces :
    content .text d.firstPieces = content .text d.contentPieces ∧
      content .thinking d.firstPieces = d.getReasoningContent := by
  cases h : d.toolCalls <;> simp [firstPieces, h]

theorem content_input_firstPieces (index : Int) :
    content (.input index) d.firstPieces =
      content (.input index) ((d.toolCalls.take 1).map fun t => (.input 0, t.arguments)) := by
  simp [firstPieces]

private theorem fitsFirst_iff :
    (∀ kind, content kind d.firstPieces = content kind d.pieces) ↔ d.FitsFirst := by
  rw [forall_kind]
  simp only [content_firstPieces, content_text_pieces, content_thinking_pieces, oneKind_iff,
    content_input_firstPieces, content_input_pieces, true_and]
  unfold ChoiceDelta.FitsFirst
  refine and_congr_right fun _ => ?_
  cases d.toolCalls with
  | nil => simp [argumentPieces]
  | cons =>
    simp only [take_succ_cons, take_zero, map_cons, map_nil, content_cons,
      content_nil, append_empty, argumentPieces, ContentKind.input.injEq,
      mem_singleton, forall_eq, drop_succ_cons, drop_zero, first_input_iff,
      content_argumentPieces_eq_empty_iff]

private theorem fitsLater_iff :
    (∀ kind, content kind d.laterPieces = content kind d.pieces) ↔ d.FitsLater := by
  unfold laterPieces ChoiceDelta.FitsLater
  rw [forall_kind]
  by_cases htools : d.toolCalls = []
  · simp only [htools, ne_eq, not_true_eq_false, if_false, content_text_pieces, oneKind_iff,
      (content_contentPieces d).2, content_thinking_pieces, content_input_contentPieces,
      content_input_pieces, argumentPieces, content_nil, implies_true, true_or, and_self]
  simp only [htools, ne_eq, not_false_eq_true, if_true, content_argumentPieces,
    content_text_pieces, content_thinking_pieces, content_input_pieces, implies_true, and_true,
    false_or, ChoiceDelta.OneKind]
  constructor
  · rintro ⟨htext, hthinking⟩
    exact ⟨.inl hthinking.symm, hthinking.symm, htext.symm⟩
  · rintro ⟨-, hthinking, htext⟩
    exact ⟨htext.symm, hthinking.symm⟩

end

private theorem nothingDropped_iff (info : ConvertInfo) (d : Delivery) :
    (∀ kind, content kind (convertedPieces info d) = content kind d.chunk.delta.pieces) ↔
      NothingDropped info d := by
  unfold convertedPieces NothingDropped
  split_ifs
  · exact silent_iff
  · exact fitsFirst_iff
  · exact silent_iff
  · exact fitsLater_iff

/-! ### Parts of what was due -/

theorem within_contentPieces (kind : ContentKind) (d : ChoiceDelta) :
    Within (content kind d.contentPieces) (content kind d.pieces) := by
  cases kind with
  | text =>
    rw [(content_contentPieces d).1, content_text_pieces]
    split
    · exact empty _
    · exact refl _
  | thinking =>
    rw [(content_contentPieces d).2, content_thinking_pieces]
    exact refl _
  | input =>
    rw [content_input_contentPieces]
    exact empty _

theorem within_laterPieces (kind : ContentKind) (d : ChoiceDelta) :
    Within (content kind d.laterPieces) (content kind d.pieces) := by
  unfold laterPieces
  split
  · cases kind with
    | text =>
      rw [(content_argumentPieces _ _).1]
      exact empty _
    | thinking =>
      rw [(content_argumentPieces _ _).2]
      exact empty _
    | input =>
      rw [content_input_pieces]
      exact refl _
  · exact within_contentPieces kind d

private theorem within_firstPieces_zero {d : ChoiceDelta}
    (h : ∀ kind, kind ≠ .input 0 → content kind d.firstPieces = content kind d.pieces) :
    Within (content (.input 0) d.firstPieces) (content (.input 0) d.pieces) := by
  rw [content_input_firstPieces, content_input_pieces]
  cases htools : d.toolCalls with
  | nil => exact empty _
  | cons t =>
    simp only [take_succ_cons, take_zero, map_cons, map_nil, content_cons,
      content_nil, append_empty, argumentPieces, ContentKind.input.injEq, if_true]
    by_cases hoffset : t.offset 0 = 0
    · rw [if_pos hoffset]
      exact left _ _
    have hother := h (.input (t.offset 0)) (by simpa using hoffset)
    rw [content_input_firstPieces, content_input_pieces] at hother
    simp only [htools, take_succ_cons, take_zero, map_cons, map_nil,
      content_cons, content_nil, argumentPieces, ContentKind.input.injEq, Ne.symm hoffset,
      if_false, if_true, append_empty] at hother
    rw [(append_eq_empty_iff.mp hother.symm).1]
    exact empty _

/-! ## Whole streams -/

section

variable (usage : Usage) (kind : ContentKind)

def given : ConvertInfo → List Delivery → List String
  | _, [] => []
  | info, d :: ds => content kind (convertedPieces info d) :: given (deliver usage d info).2 ds

def due (ds : List Delivery) : List String := ds.map fun d => content kind d.chunk.delta.pieces

variable (info : ConvertInfo) (ds : List Delivery)

private theorem content_streamPieces :
    content kind (streamPieces usage info ds) = join (given usage kind info ds) := by
  induction ds generalizing info with
  | nil => rfl
  | cons d ds ih =>
    simp [streamPieces, given, content_append, content_deliver, ih, join_cons]

variable {usage kind}

theorem forall₂_within_given (hkind : kind ≠ .input 0) (info : ConvertInfo) (ds : List Delivery) :
    List.Forall₂ Within (given usage kind info ds) (due kind ds) := by
  induction ds generalizing info with
  | nil => exact .nil
  | cons d ds ih =>
    refine .cons ?_ (ih _)
    unfold convertedPieces
    split_ifs
    · exact empty _
    · have hcontent : content kind d.chunk.delta.firstPieces =
          content kind d.chunk.delta.contentPieces := by
        unfold firstPieces
        cases d.chunk.delta.toolCalls <;> simp [Ne.symm hkind]
      rw [hcontent]
      exact within_contentPieces kind _
    · exact empty _
    · exact within_laterPieces kind _

theorem forall₂_within_given_zero {info : ConvertInfo} {ds : List Delivery}
    (h : ∀ kind, kind ≠ .input 0 → given usage kind info ds = due kind ds) :
    List.Forall₂ Within (given usage (.input 0) info ds) (due (.input 0) ds) := by
  induction ds generalizing info with
  | nil => exact .nil
  | cons d ds ih =>
    refine .cons ?_ (ih fun kind hkind => (cons_eq_cons.mp (h kind hkind)).2)
    have hd := fun kind hkind => (cons_eq_cons.mp (h kind hkind)).1
    unfold convertedPieces at hd ⊢
    split_ifs at hd ⊢
    · exact empty _
    · exact within_firstPieces_zero hd
    · exact empty _
    · exact within_laterPieces (.input 0) _

/-- The concatenations agree only if no delivery drops anything. -/
private theorem join_given_iff :
    (∀ kind, join (given usage kind info ds) = join (due kind ds)) ↔
      ∀ kind, given usage kind info ds = due kind ds := by
  refine ⟨fun h => ?_, fun h kind => congrArg join (h kind)⟩
  have hother : ∀ kind, kind ≠ .input 0 → given usage kind info ds = due kind ds :=
    fun kind hkind => (join_eq_iff_of_within (forall₂_within_given hkind info ds)).mp (h kind)
  intro kind
  by_cases hkind : kind = .input 0
  · subst hkind
    exact (join_eq_iff_of_within (forall₂_within_given_zero hother)).mp (h (.input 0))
  · exact hother kind hkind

private theorem given_eq_due_iff :
    (∀ kind, given usage kind info ds = due kind ds) ↔
      Admits (fun info d => (deliver usage d info).2) NothingDropped info ds := by
  induction ds generalizing info with
  | nil => simp [given, due]
  | cons d ds ih =>
    rw [admits_cons, ← nothingDropped_iff, ← ih, ← forall_and]
    exact forall_congr' fun kind => cons_eq_cons

end

/-! ### Events -/

def ClaudeEvent.text : ClaudeEvent → String
  | .contentBlockDelta _ (.textDelta text) => text
  | _ => ""

def ClaudeEvent.thinking : ClaudeEvent → String
  | .contentBlockDelta _ (.thinkingDelta thinking) => thinking
  | _ => ""

theorem ClaudeEvent.content_piece (base : Int) (e : ClaudeEvent) :
    content .text (e.piece base).toList = e.text ∧
      content .thinking (e.piece base).toList = e.thinking := by
  rcases e with _ | _ | ⟨index, _ | _ | _⟩ | _ | _ | _ <;>
    simp [piece, text, thinking]

theorem content_piecesOf (base : Int) (events : List ClaudeEvent) :
    content .text (piecesOf base events) = join (events.map text) ∧
      content .thinking (piecesOf base events) = join (events.map thinking) := by
  induction events with
  | nil => exact ⟨rfl, rfl⟩
  | cons e events ih =>
    simp only [piecesOf_cons, content_append, (e.content_piece base).1,
      (e.content_piece base).2, ih.1, ih.2, map_cons, join_cons, and_self]

theorem content_events (usage : Usage) (info : ConvertInfo) (ds : List Delivery) :
    content .text (streamPieces usage info ds) =
        join ((forEach (deliver usage) ds info).1.map text) ∧
      content .thinking (streamPieces usage info ds) =
        join ((forEach (deliver usage) ds info).1.map thinking) := by
  induction ds generalizing info with
  | nil => exact ⟨rfl, rfl⟩
  | cons d ds ih =>
    simp only [streamPieces, content_append, (content_piecesOf _ _).1, (content_piecesOf _ _).2,
      (ih _).1, (ih _).2, forEach, andThen, map_append, join_append, and_self]

def Chunk.arguments (index : Int) (chunk : Chunk) : String :=
  content (.input index) (argumentPieces 0 chunk.delta.toolCalls)

structure NothingLost (estimatePromptTokens : Int) (usage : Usage) (chunks : List Chunk) :
    Prop where
  text : join ((oaiStreamHandler estimatePromptTokens usage chunks).map text) =
    join (chunks.map fun c => c.delta.getContentString)
  thinking :
    join ((oaiStreamHandler estimatePromptTokens usage chunks).map thinking) =
      join (chunks.map fun c => c.delta.getReasoningContent)
  input : ∀ index, content (.input index) (oaiStreamPieces estimatePromptTokens usage chunks) =
    join (chunks.map (Chunk.arguments index))

private theorem due_deliveries (kind : ContentKind) (chunks : List Chunk) :
    due kind (deliveries chunks) = chunks.map fun c => content kind c.delta.pieces := by
  have hmap : due kind (deliveries chunks) =
      ((deliveries chunks).map Delivery.chunk).map fun c => content kind c.delta.pieces := by
    simp [due]
  rw [hmap, deliveries_chunk]

/--
No text, thinking or argument of a chunk stream is lost exactly if every chunk
holds one kind of content only, in a place where the converter looks for it.
-/
theorem oaiStreamHandler_nothingLost_iff (estimate : Int) (usage : Usage) (chunks : List Chunk) :
    NothingLost estimate usage chunks ↔
      Admits (fun info d => (deliver usage d info).2) NothingDropped (.start estimate)
        (deliveries chunks) := by
  rw [← given_eq_due_iff, ← join_given_iff]
  simp only [← content_streamPieces, due_deliveries]
  rw [forall_kind]
  simp only [(content_events _ _ _).1, (content_events _ _ _).2, content_text_pieces,
    content_thinking_pieces, content_input_pieces]
  exact ⟨fun h => ⟨h.text, h.thinking, h.input⟩, fun h => ⟨h.1, h.2.1, h.2.2⟩⟩

/-- Text beside thinking, a second tool call in the first chunk, text in a finish
chunk that has no usage. -/
theorem oaiStreamHandler_nothingLost_counterexample :
    ¬ NothingLost 0 {}
        [chunkOf {}, chunkOf { content := some "Hi", reasoningContent := some "hm" },
          chunkOf {} (some "stop") (some {})] ∧
      ¬ NothingLost 0 {}
        [chunkOf
            { toolCalls :=
                [⟨some 0, "call_1", "find", emptyObject⟩,
                  ⟨some 1, "call_2", "find", emptyObject⟩] },
          chunkOf {}, chunkOf {} (some "tool_calls") (some {})] ∧
      ¬ NothingLost 0 {}
        [chunkOf {}, chunkOf { content := some "Hi" } (some "stop"),
          { id := "chatcmpl-1", model := "gpt-4o", choices := [], usage := some {} }] := by
  refine ⟨fun h => absurd h.text ?_, fun h => absurd (h.input 1) ?_, fun h => absurd h.text ?_⟩
  all_goals decide

end NewApi.Claude
