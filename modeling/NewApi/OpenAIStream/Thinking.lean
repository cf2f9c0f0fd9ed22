import NewApi.Foundation.Joins
import NewApi.OpenAIStream.Handler

/-!
# Reasoning as tagged content

With `ThinkingToContent`, `sendStreamData` writes the reasoning of a chunk as
content between `<think>` and `</think>`.  The content of a stream with one
choice is a sequence of pieces: tags, reasoning and text.  A chunk with both
loses its text, and the end tag is written for the first text after the first
reasoning only.
-/

namespace NewApi.OpenAIStream

open Foundation List Dto StreamResponse Emitter String

inductive Piece where
  | openTag
  | closeTag
  | reasoning (s : String)
  | text (s : String)
  deriving DecidableEq

def Piece.render : Piece → String
  | .openTag => "<think>\n"
  | .closeTag => "\n</think>\n"
  | .reasoning s => s
  | .text s => s

def render (pieces : List Piece) : String := join (pieces.map Piece.render)

def Piece.isFragment : Piece → Bool
  | .openTag | .closeTag => false
  | .reasoning _ | .text _ => true

/-- Every opened tag is closed before the next one is opened, and before any text. -/
def balanced : Bool → List Piece → Bool
  | inside, [] => !inside
  | inside, .openTag :: pieces => !inside && balanced true pieces
  | inside, .closeTag :: pieces => inside && balanced false pieces
  | inside, .reasoning _ :: pieces => balanced inside pieces
  | inside, .text _ :: pieces => !inside && balanced false pieces

def nonEmpty (piece : String → Piece) (s : String) : List Piece :=
  if s = "" then [] else [piece s]

structure Parts where
  reasoning : String
  text : String

open Parts

namespace Parts

def fragments (parts : Parts) : List Piece :=
  nonEmpty .reasoning parts.reasoning ++ nonEmpty .text parts.text

def mixed (parts : Parts) : Bool := parts.reasoning ≠ "" && parts.text ≠ ""

def closes (parts : Parts) (info : ThinkingContentInfo) : Bool :=
  parts.text ≠ "" && !info.sendLastThinkingContent && info.hasSentThinkingContent

def pieces (parts : Parts) : Emitter ThinkingContentInfo Piece := fun info =>
  if info.isFirstThinkingContent = true ∧ parts.reasoning ≠ "" then
    ([.openTag, .reasoning parts.reasoning],
      { info with isFirstThinkingContent := false, hasSentThinkingContent := true })
  else
    ((if parts.closes info = true then [.closeTag] else []) ++
        (if parts.reasoning ≠ "" then [.reasoning parts.reasoning] else nonEmpty .text parts.text),
      if parts.closes info = true then { info with sendLastThinkingContent := true } else info)

end Parts

def StreamResponse.contentText (chunk : StreamResponse) : String :=
  join (chunk.choices.map fun choice => choice.delta.getContentString)

def StreamResponse.parts (chunk : StreamResponse) : Parts :=
  ⟨chunk.thinkingContent, chunk.contentText⟩

def thinkingPieces (chunks : List StreamResponse) : List Piece :=
  (forEach pieces (chunks.map parts) {}).1

def fragmentsOf (chunks : List StreamResponse) : List Piece := (chunks.map parts).flatMap fragments

/-- All reasoning and text is there in its order, and the tags are paired around reasoning. -/
def KeepsThinking (pieces fragments : List Piece) : Prop :=
  pieces.filter Piece.isFragment = fragments ∧ balanced false pieces = true

def answerFollows : List Parts → Bool
  | [] => true
  | parts :: later =>
    if parts.reasoning ≠ "" then later.any fun p => p.text ≠ "" else answerFollows later

def Write.content : Write → String
  | .object chunk => chunk.contentText
  | _ => ""

def contentOf (writes : List Write) : String := join (writes.map Write.content)

section

variable {json : ChunkJson} {options : StreamOptions}

@[simp] theorem contentOf_append (first second : List Write) :
    contentOf (first ++ second) = contentOf first ++ contentOf second := by
  simp [contentOf]

@[simp] theorem render_append (first second : List Piece) :
    render (first ++ second) = render first ++ render second := by
  simp [render]

@[simp] theorem render_nonEmpty_text (s : String) : render (nonEmpty .text s) = s := by
  unfold nonEmpty
  split
  · next h => rw [h]; rfl
  · simp [render, Piece.render, join_cons]

variable {chunk : StreamResponse} {data : String} {datas : List String}

theorem contentText_copyWith {choice : StreamChoice} (h : chunk.choices = [choice]) (s : String) :
    (chunk.copyWith s).contentText = s := by
  simp [copyWith, contentText, h, ChoiceDelta.setContentString,
    ChoiceDelta.clearReasoning, ChoiceDelta.getContentString, join_cons]

private theorem getContentString_convertChoice (chunk : StreamResponse) (choice : StreamChoice) :
    (chunk.convertChoice choice).delta.getContentString =
      if choice.delta.getReasoningContent ≠ "" then choice.delta.getReasoningContent
      else choice.delta.getContentString := by
  unfold convertChoice StreamChoice.hasReasoning
  by_cases hreasoning : choice.delta.getReasoningContent = ""
  · simp only [hreasoning, ne_eq, not_true_eq_false, decide_false, Bool.false_eq_true, if_false]
    split <;> rfl
  · simp [hreasoning, ChoiceDelta.setContentString, ChoiceDelta.clearReasoning,
      ChoiceDelta.getContentString]

theorem thinkToContent_pieces (hsingle : chunk.choices.length ≤ 1) (info : ThinkingContentInfo) :
    contentOf (thinkToContent chunk info).1 = render (chunk.parts.pieces info).1 ∧
      (thinkToContent chunk info).2 = (chunk.parts.pieces info).2 := by
  unfold thinkToContent pieces closes
  match hchoices : chunk.choices with
  | [] =>
    simp [parts, hasThinkingContent, thinkingContent,
      contentText, hchoices, contentOf, render, nonEmpty, Write.content]
  | [choice] =>
    have hparts : chunk.parts =
        ⟨choice.delta.getReasoningContent, choice.delta.getContentString⟩ := by
      simp [parts, thinkingContent, contentText, hchoices, join_cons]
    have hthinking : chunk.thinkingContent = choice.delta.getReasoningContent :=
      congrArg reasoning hparts
    have hconverted : contentText
        { chunk with choices := [chunk.convertChoice choice] } =
        (chunk.convertChoice choice).delta.getContentString := by
      simp [contentText, join_cons]
    have hhas : chunk.hasThinkingContent = decide (choice.delta.getReasoningContent ≠ "") ∧
        chunk.hasContent = decide (choice.delta.getContentString ≠ "") := by
      simp [hasThinkingContent, hasContent, hchoices,
        StreamChoice.hasReasoning, StreamChoice.hasContent]
    rw [hparts, hthinking, hhas.1, hhas.2]
    simp only [map_cons, map_nil, decide_eq_true_eq, cons_ne_nil, if_false]
    by_cases hfirst : info.isFirstThinkingContent = true ∧ choice.delta.getReasoningContent ≠ ""
    · rw [if_pos hfirst, if_pos hfirst]
      constructor
      · simp [contentOf, Write.content, contentText_copyWith hchoices, render, Piece.render,
          join_cons]
      · rfl
    rw [if_neg hfirst, if_neg hfirst]
    constructor
    · simp only [contentOf_append, render_append]
      congr 1
      · split
        · simp [contentOf, Write.content, contentText_copyWith hchoices, render, Piece.render,
            join_cons]
        · rfl
      · have hwrite : contentOf
            [.object { chunk with choices := [chunk.convertChoice choice] }] =
            (chunk.convertChoice choice).delta.getContentString := by
          rw [← hconverted]
          simp [contentOf, Write.content, join_cons]
        rw [hwrite, getContentString_convertChoice]
        split
        · simp [render, Piece.render, join_cons]
        · simp
    · rfl
  | first :: second :: rest =>
    rw [hchoices] at hsingle
    simp at hsingle

def SingleChoice (json : ChunkJson) (datas : List String) : Prop :=
  ∀ d ∈ datas, ∃ chunk, json.unmarshal d = some chunk ∧ chunk.choices.length ≤ 1

def chunksOf (json : ChunkJson) (datas : List String) : List StreamResponse :=
  datas.filterMap json.unmarshal

theorem ne_empty_of_unmarshal (h : json.unmarshal data = some chunk) : data ≠ "" := by
  rintro rfl
  rw [json.unmarshal_empty] at h
  cases h

theorem forEach_relayData_pieces (hthink : options.thinkingToContent = true)
    (h : SingleChoice json datas) (info : ThinkingContentInfo) :
    contentOf ((forEach (relayData json options) datas info).1.flatMap Sent.writes) =
        render (forEach pieces ((chunksOf json datas).map parts) info).1 ∧
      (forEach (relayData json options) datas info).2 =
        (forEach pieces ((chunksOf json datas).map parts) info).2 := by
  induction datas generalizing info with
  | nil => exact ⟨rfl, rfl⟩
  | cons data datas ih =>
    rcases h data mem_cons_self with ⟨chunk, hchunk, hsingle⟩
    have hchunks : chunksOf json (data :: datas) = chunk :: chunksOf json datas :=
      filterMap_cons_some hchunk
    have hsend : sendStreamData json options data info = thinkToContent chunk info := by
      simp [sendStreamData, ne_empty_of_unmarshal hchunk, hthink, hchunk]
    rcases thinkToContent_pieces hsingle info with ⟨hcontent, hinfo⟩
    rw [← hsend] at hcontent hinfo
    rcases ih (fun d hd => h d (mem_cons_of_mem _ hd)) (chunk.parts.pieces info).2 with
      ⟨hrest, hend⟩
    rw [hchunks, map_cons]
    simp only [forEach, andThen, relayData, flatMap_append,
      flatMap_singleton, contentOf_append, render_append]
    rw [hinfo, hcontent, hrest, hend]
    exact ⟨rfl, rfl⟩

private theorem forEach_singleton_pieces (h : chunk.parts = ⟨"", ""⟩) (info : ThinkingContentInfo) :
    forEach pieces [chunk.parts] info = ([], info) := by
  rw [h]
  simp [forEach, andThen, skip, pieces, closes, nonEmpty]

private theorem parts_of_withholds (hchunk : json.unmarshal data = some chunk)
    (h : withholds json options data = true) : chunk.parts = ⟨"", ""⟩ := by
  unfold withholds at h
  rw [hchunk] at h
  simp only [Bool.and_eq_true, Bool.not_eq_true', any_eq_false, Bool.or_eq_true, not_or,
    StreamChoice.hasContent, StreamChoice.hasReasoning, decide_eq_true_eq, not_not] at h
  have hreasoning : chunk.thinkingContent = "" :=
    join_eq_empty_iff.mpr (forall_mem_map.mpr fun choice hchoice => (h.2 choice hchoice).2)
  have htext : chunk.contentText = "" :=
    join_eq_empty_iff.mpr (forall_mem_map.mpr fun choice hchoice => (h.2 choice hchoice).1)
  rw [parts, hreasoning, htext]

private theorem contentOf_final (last : LastResponse) (usage : Usage) :
    contentOf (handleFinalResponse options last usage) = "" := by
  unfold handleFinalResponse
  split <;> rfl

end

section

variable (parts : Parts) (list : List Parts)

theorem filter_pieces_of_not_mixed (h : parts.mixed = false) (info : ThinkingContentInfo) :
    (parts.pieces info).1.filter Piece.isFragment = parts.fragments := by
  rcases parts with ⟨reasoning, text⟩
  unfold pieces fragments nonEmpty
  by_cases hreasoning : reasoning = ""
  · by_cases htext : text = ""
    · simp [hreasoning, htext, closes]
    · simp only [hreasoning, htext, ne_eq, not_true_eq_false, and_false, if_false]
      split <;> simp [Piece.isFragment]
  · have htext : text = "" := by simpa [mixed, hreasoning] using h
    simp only [hreasoning, htext, ne_eq, not_false_eq_true, and_true, if_true]
    split
    · simp [Piece.isFragment]
    · simp [closes, Piece.isFragment]

private theorem filter_forEach_pieces (h : ∀ parts ∈ list, parts.mixed = false)
    (info : ThinkingContentInfo) :
    (forEach pieces list info).1.filter Piece.isFragment = list.flatMap fragments := by
  induction list generalizing info with
  | nil => rfl
  | cons parts list ih =>
    simp only [forEach, andThen, filter_append, flatMap_cons]
    rw [filter_pieces_of_not_mixed parts (h parts mem_cons_self),
      ih (fun p hp => h p (mem_cons_of_mem _ hp)) (parts.pieces info).2]

/-- A mixed chunk writes one fragment less than it has. -/
private theorem length_filter_pieces (info : ThinkingContentInfo) :
    ((parts.pieces info).1.filter Piece.isFragment).length + parts.mixed.toNat =
      parts.fragments.length := by
  cases hmixed : parts.mixed with
  | false => rw [filter_pieces_of_not_mixed parts hmixed, Bool.toNat_false, Nat.add_zero]
  | true =>
    obtain ⟨hreasoning, htext⟩ : parts.reasoning ≠ "" ∧ parts.text ≠ "" := by
      simpa [mixed] using hmixed
    have hone : ((parts.pieces info).1.filter Piece.isFragment) =
        [.reasoning parts.reasoning] := by
      unfold pieces
      split
      · rfl
      · dsimp only
        split <;> rfl
    simp [hone, fragments, nonEmpty, hreasoning, htext]

private theorem length_filter_forEach_pieces (info : ThinkingContentInfo) :
    ((forEach pieces list info).1.filter Piece.isFragment).length + list.countP mixed =
      (list.flatMap fragments).length := by
  induction list generalizing info with
  | nil => rfl
  | cons parts list ih =>
    have hfirst := length_filter_pieces parts info
    have hrest := ih (parts.pieces info).2
    simp only [forEach, andThen, filter_append, flatMap_cons, List.length_append,
      countP_cons]
    cases hmixed : parts.mixed with
    | false | true =>
      rw [hmixed] at hfirst
      simp only [Bool.toNat_true, Bool.toNat_false, if_true, Bool.false_eq_true,
        if_false] at hfirst ⊢
      omega

private theorem filter_forEach_pieces_iff (info : ThinkingContentInfo) :
    (forEach pieces list info).1.filter Piece.isFragment = list.flatMap fragments ↔
      ∀ parts ∈ list, parts.mixed = false := by
  constructor
  · intro h
    have hlength := length_filter_forEach_pieces list info
    rw [h, Nat.add_eq_left, countP_eq_zero] at hlength
    simpa using hlength
  · exact fun h => filter_forEach_pieces list h info

/-! ### The three phases of a stream -/

def thinkingPhase : ThinkingContentInfo := ⟨false, false, true⟩

def answerPhase : ThinkingContentInfo := ⟨false, true, true⟩

@[simp] theorem balanced_nonEmpty_text (s : String) (pieces : List Piece) :
    balanced false (nonEmpty .text s ++ pieces) = balanced false pieces := by
  unfold nonEmpty
  split <;> simp [balanced]

theorem balanced_answerPhase : balanced false (forEach pieces list answerPhase).1 = true := by
  induction list with
  | nil => rfl
  | cons parts list ih =>
    have hinfo : (parts.pieces answerPhase).2 = answerPhase := by
      simp [pieces, closes, answerPhase]
    simp only [forEach, andThen]
    rw [hinfo]
    by_cases hreasoning : parts.reasoning = ""
    · simpa [pieces, closes, answerPhase, hreasoning] using ih
    · simpa [pieces, closes, answerPhase, hreasoning, balanced] using ih

private theorem balanced_thinkingPhase :
    balanced true (forEach pieces list thinkingPhase).1 =
      list.any fun parts => parts.text ≠ "" := by
  induction list with
  | nil => rfl
  | cons parts list ih =>
    simp only [forEach, andThen, any_cons]
    by_cases htext : parts.text = ""
    · have hinfo : (parts.pieces thinkingPhase).2 = thinkingPhase := by
        simp [pieces, closes, thinkingPhase, htext]
      rw [hinfo]
      by_cases hreasoning : parts.reasoning = ""
      · simpa [pieces, closes, thinkingPhase, hreasoning, htext, nonEmpty] using ih
      · simpa [pieces, closes, thinkingPhase, hreasoning, htext, balanced] using ih
    · have hinfo : (parts.pieces thinkingPhase).2 = answerPhase := by
        simp [pieces, closes, thinkingPhase, answerPhase, htext]
      have hrest := balanced_answerPhase list
      rw [hinfo]
      by_cases hreasoning : parts.reasoning = ""
      · simpa [pieces, closes, thinkingPhase, hreasoning, htext, balanced] using hrest
      · simpa [pieces, closes, thinkingPhase, hreasoning, htext, balanced] using hrest

theorem balanced_start : balanced false (forEach pieces list {}).1 = answerFollows list := by
  induction list with
  | nil => rfl
  | cons parts list ih =>
    simp only [forEach, andThen, answerFollows]
    by_cases hreasoning : parts.reasoning = ""
    · have hinfo : (parts.pieces {}).2 = {} := by
        simp [pieces, closes, hreasoning]
      rw [hinfo]
      simpa [pieces, closes, hreasoning] using ih
    · have hinfo : (parts.pieces {}).2 = thinkingPhase := by
        simp [pieces, thinkingPhase, hreasoning]
      have hrest := balanced_thinkingPhase list
      rw [hinfo]
      simpa [pieces, hreasoning, balanced] using hrest

end

/--
The content of a stream with one choice is spelled by its pieces.  They keep all
reasoning and text, with paired tags around the reasoning, if and only if no chunk
has both and the first reasoning is followed by text.
-/
theorem thinking_to_content_iff (json : ChunkJson) (options : StreamOptions)
    (upstreamModelName : String) (usage : Usage) (datas : List String)
    (hthink : options.thinkingToContent = true) (h : SingleChoice json datas) :
    contentOf (oaiStreamHandler json options upstreamModelName usage datas).writes =
        render (thinkingPieces (chunksOf json datas)) ∧
      (KeepsThinking (thinkingPieces (chunksOf json datas))
          (fragmentsOf (chunksOf json datas)) ↔
        (∀ chunk ∈ chunksOf json datas, chunk.parts.mixed = false) ∧
          answerFollows ((chunksOf json datas).map parts) = true) := by
  constructor
  · have hne : ∀ d ∈ datas, d ≠ "" := by
      intro d hd
      rcases h d hd with ⟨chunk, hchunk, -⟩
      exact ne_empty_of_unmarshal hchunk
    have hrun := forEach_relayData_pieces hthink h {}
    have hfinal : (oaiStreamHandler json options upstreamModelName usage datas).final =
        handleFinalResponse options _ usage := rfl
    rw [Relayed.writes, contentOf_append, hfinal, contentOf_final, append_empty,
      oaiStreamHandler_sent hne]
    rcases eq_nil_or_concat datas with rfl | ⟨init, last, rfl⟩
    · rw [getLastD_nil, withholds, json.unmarshal_empty]
      rfl
    rw [concat_eq_append] at h hrun ⊢
    rw [dropLast_concat, getLastD_concat]
    rcases h last (mem_append_right _ (mem_singleton_self last)) with ⟨chunk, hchunk, -⟩
    have hinit : SingleChoice json init := fun d hd => h d (mem_append_left _ hd)
    have hchunks : chunksOf json (init ++ [last]) = chunksOf json init ++ [chunk] := by
      simp [chunksOf, hchunk]
    cases hheld : withholds json options last with
    | true =>
      rw [thinkingPieces, hchunks, map_append, forEach_append]
      simp only [andThen, map_cons, map_nil,
        forEach_singleton_pieces (parts_of_withholds hchunk hheld)]
      simpa using (forEach_relayData_pieces hthink hinit {}).1
    | false =>
      rw [forEach_append] at hrun
      simpa [andThen, forEach, skip, thinkingPieces] using hrun.1
  · unfold KeepsThinking thinkingPieces fragmentsOf
    rw [filter_forEach_pieces_iff, balanced_start, forall_mem_map]

def deltaChunk (reasoning text : String) : StreamResponse where
  choices := [{ delta := { content := some text, reasoningContent := some reasoning } }]

def thoughtJson : ChunkJson :=
  tableJson [("think", deltaChunk "hmm" ""), ("answer", deltaChunk "" "42"),
    ("both", deltaChunk "hmm" "42")] rfl

theorem thinking_to_content_resumed :
    contentOf (oaiStreamHandler thoughtJson { thinkingToContent := true } "r1" {}
        ["think", "think", "answer"]).writes = "<think>\nhmmhmm\n</think>\n42" ∧
      KeepsThinking (thinkingPieces (chunksOf thoughtJson ["think", "think", "answer"]))
        (fragmentsOf (chunksOf thoughtJson ["think", "think", "answer"])) := by
  have hsingle : SingleChoice thoughtJson ["think", "think", "answer"] := by
    intro d hd
    simp only [mem_cons, not_mem_nil, or_false] at hd
    rcases hd with rfl | rfl | rfl <;> exact ⟨_, rfl, le_rfl⟩
  have h := thinking_to_content_iff thoughtJson { thinkingToContent := true } "r1" {}
    ["think", "think", "answer"] rfl hsingle
  exact ⟨h.1.trans (by decide), h.2.mpr (by decide)⟩

/-- The text of a mixed chunk is lost, and a stream that ends while thinking leaves its tag open. -/
theorem thinking_to_content_counterexample :
    contentOf (oaiStreamHandler thoughtJson { thinkingToContent := true } "r1" {}
        ["both", "answer"]).writes = "<think>\nhmm\n</think>\n42" ∧
      fragmentsOf (chunksOf thoughtJson ["both", "answer"]) =
        [.reasoning "hmm", .text "42", .text "42"] ∧
      contentOf (oaiStreamHandler thoughtJson { thinkingToContent := true } "r1" {}
        ["think"]).writes = "<think>\nhmm" := by
  decide

end NewApi.OpenAIStream
