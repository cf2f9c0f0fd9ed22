import NewApi.Dto.ChatStream
import NewApi.Foundation.Emit

/-!
# The stream handler of OpenAI channels

`OaiStreamHandler` of `relay/channel/openai/relay-openai.go`, which hands every
chunk on when the next one arrives.  The last chunk is looked at first: if it
has a usage that the client did not ask for, it is sent only for its text or
reasoning, whatever else it carries.
-/

namespace NewApi.OpenAIStream

open Foundation List Dto Emitter

/-!
## Chunks of a chat completion stream

`ChatCompletionsStreamResponse` of `dto/openai_response.go` as the stream
handler reads it.  A missing and an empty list of tool calls are different for
the Gemini converter.
-/

structure ToolCallResponse where
  index : Option Int := none
  id : String := ""
  name : String := ""
  arguments : String := ""
  deriving DecidableEq

structure ChoiceDelta where
  content : Option String := none
  reasoningContent : Option String := none
  reasoning : Option String := none
  toolCalls : Option (List ToolCallResponse) := none
  deriving DecidableEq

namespace ChoiceDelta

section

variable (d : ChoiceDelta)

def getContentString : String := d.content.getD ""

def getReasoningContent : String :=
  match d.reasoningContent with
  | some text => text
  | none => d.reasoning.getD ""

def setContentString (s : String) : ChoiceDelta := { d with content := some s }

def clearReasoning : ChoiceDelta :=
  { d with reasoningContent := none, reasoning := none }

end

end ChoiceDelta

structure StreamChoice where
  index : Int := 0
  delta : ChoiceDelta := {}
  finishReason : Option String := none
  deriving DecidableEq

structure StreamResponse where
  id : String := ""
  created : Int := 0
  model : String := ""
  systemFingerprint : Option String := none
  choices : List StreamChoice := []
  usage : Option Usage := none
  deriving DecidableEq

/-- `common.Unmarshal` into a chunk, and into a struct with the usage alone; the
empty text is not JSON. -/
structure ChunkJson where
  unmarshal : String → Option StreamResponse
  unmarshalUsage : String → Option (Option Usage)
  unmarshal_empty : unmarshal "" = none

namespace StreamChoice

section

variable (choice : StreamChoice)

def hasContent : Bool := choice.delta.getContentString ≠ ""

def hasReasoning : Bool := choice.delta.getReasoningContent ≠ ""

def hasToolCalls : Bool := choice.delta.toolCalls.getD [] ≠ []

def finished : Bool := choice.finishReason.getD "" ≠ ""

end

end StreamChoice

def validUsage : Option Usage → Bool
  | none => false
  | some usage => usage.promptTokens ≠ 0 || usage.completionTokens ≠ 0

/-- What is written to the client: a text as it is, an object as JSON, the end mark. -/
inductive Write where
  | data (text : String)
  | object (chunk : StreamResponse)
  | done
  deriving DecidableEq

structure ThinkingContentInfo where
  isFirstThinkingContent : Bool := true
  sendLastThinkingContent : Bool := false
  hasSentThinkingContent : Bool := false

structure StreamOptions where
  forceFormat : Bool := false
  thinkingToContent : Bool := false
  shouldIncludeUsage : Bool := false
  isAudioModel : Bool := false

namespace StreamResponse

variable (chunk : StreamResponse)

def hasContent : Bool := chunk.choices.any StreamChoice.hasContent

def hasThinkingContent : Bool := chunk.choices.any StreamChoice.hasReasoning

def thinkingContent : String :=
  String.join (chunk.choices.map fun choice => choice.delta.getReasoningContent)

def copyWith (s : String) : StreamResponse :=
  { chunk with
    choices := chunk.choices.map fun choice =>
      { choice with delta := (choice.delta.setContentString s).clearReasoning } }

/-- Reasoning takes the place of the content. -/
def convertChoice (choice : StreamChoice) : StreamChoice :=
  if choice.hasReasoning = true then
    { choice with
      delta := (choice.delta.setContentString choice.delta.getReasoningContent).clearReasoning }
  else if chunk.hasThinkingContent = false ∧ chunk.hasContent = false then
    { choice with delta := choice.delta.clearReasoning }
  else choice

end StreamResponse

def thinkToContent (chunk : StreamResponse) : Emitter ThinkingContentInfo Write := fun info =>
  if info.isFirstThinkingContent = true ∧ chunk.hasThinkingContent = true then
    ([.object (chunk.copyWith ("<think>\n" ++ chunk.thinkingContent))],
      { info with isFirstThinkingContent := false, hasSentThinkingContent := true })
  else if chunk.choices = [] then ([.object chunk], info)
  else
    -- the test stands in the loop over the choices, but holds for the first one at most
    let closes := chunk.hasContent && !info.sendLastThinkingContent && info.hasSentThinkingContent
    ((if closes = true then [.object (chunk.copyWith "\n</think>\n")] else []) ++
        [.object { chunk with choices := chunk.choices.map chunk.convertChoice }],
      if closes = true then { info with sendLastThinkingContent := true } else info)

section

variable (json : ChunkJson) (options : StreamOptions)

def sendStreamData (data : String) : Emitter ThinkingContentInfo Write := fun info =>
  if data = "" then ([], info)
  else if options.forceFormat = false ∧ options.thinkingToContent = false then
    ([.data data], info)
  else
    match json.unmarshal data with
    | none => ([], info)
    | some chunk =>
      if options.thinkingToContent = false then ([.object chunk], info)
      else thinkToContent chunk info

end

structure LoopState (σ : Type) where
  lastStreamData : String
  secondLastStreamData : String
  info : σ

section

variable {σ ε : Type} (handle : String → Emitter σ ε) (isAudioModel : Bool)

def onData (data : String) : Emitter (LoopState σ) ε := fun s =>
  let handled := if s.lastStreamData ≠ "" then handle s.lastStreamData s.info else ([], s.info)
  (handled.1,
    { lastStreamData := if data ≠ "" then data else s.lastStreamData
      secondLastStreamData :=
        if data ≠ "" ∧ isAudioModel = true ∧ s.lastStreamData ≠ "" then s.lastStreamData
        else s.secondLastStreamData
      info := handled.2 })

def streamLoop (datas : List String) (info : σ) : List ε × LoopState σ :=
  forEach (onData handle isAudioModel) datas ⟨"", "", info⟩

private theorem forEach_onData {datas : List String} (h : ∀ d ∈ datas, d ≠ "") {s : LoopState σ}
    (hlast : s.lastStreamData ≠ "") :
    let run := forEach (onData handle isAudioModel) datas s
    let handled := forEach handle (s.lastStreamData :: datas).dropLast s.info
    run.1 = handled.1 ∧ run.2.info = handled.2 ∧
      run.2.lastStreamData = datas.getLastD s.lastStreamData := by
  induction datas generalizing s with
  | nil => exact ⟨rfl, rfl, rfl⟩
  | cons data datas ih =>
    have hdata : data ≠ "" := h data mem_cons_self
    have hnext : (onData handle isAudioModel data s).2.lastStreamData = data := if_pos hdata
    have hinfo : (onData handle isAudioModel data s).2.info =
        (handle s.lastStreamData s.info).2 := by
      simp [onData, hlast]
    have hout : (onData handle isAudioModel data s).1 = (handle s.lastStreamData s.info).1 := by
      simp [onData, hlast]
    have hrest := ih (fun d hd => h d (mem_cons_of_mem _ hd))
      (s := (onData handle isAudioModel data s).2) (by rw [hnext]; exact hdata)
    rw [hnext, hinfo] at hrest
    rcases hrest with ⟨hwrites, hend, hlater⟩
    refine ⟨?_, ?_, ?_⟩
    · rw [dropLast_cons_cons]
      simp only [forEach, andThen]
      rw [hwrites, hout]
    · rw [dropLast_cons_cons]
      simp only [forEach, andThen]
      rw [hend]
    · rw [getLastD_cons]
      exact hlater

theorem streamLoop_eq {datas : List String} (h : ∀ d ∈ datas, d ≠ "") (info : σ) :
    (streamLoop handle isAudioModel datas info).1 = (forEach handle datas.dropLast info).1 ∧
      (streamLoop handle isAudioModel datas info).2.info = (forEach handle datas.dropLast info).2 ∧
      (streamLoop handle isAudioModel datas info).2.lastStreamData = datas.getLastD "" := by
  cases datas with
  | nil => exact ⟨rfl, rfl, rfl⟩
  | cons data =>
    have hdata : data ≠ "" := h data mem_cons_self
    have hfirst : onData handle isAudioModel data ⟨"", "", info⟩ = ([], ⟨data, "", info⟩) := by
      simp [onData, hdata]
    have hrest := forEach_onData handle isAudioModel
      (fun d hd => h d (mem_cons_of_mem _ hd)) (s := ⟨data, "", info⟩) hdata
    unfold streamLoop
    simp only [forEach, andThen, hfirst, nil_append]
    rw [getLastD_cons]
    exact hrest

end

structure LastResponse where
  responseId : String := ""
  createAt : Int := 0
  systemFingerprint : String := ""
  model : String
  containStreamUsage : Bool := false
  shouldSendLastResp : Bool := true

section

variable (json : ChunkJson) (options : StreamOptions)

def audioUsage (secondLastStreamData : String) : Bool :=
  options.isAudioModel && secondLastStreamData ≠ "" &&
    match json.unmarshalUsage secondLastStreamData with
    | none => false
    | some usage => validUsage usage

def handleLastResponse (lastStreamData : String) (last : LastResponse) : LastResponse :=
  match json.unmarshal lastStreamData with
  | none => last
  | some chunk =>
    { responseId := chunk.id
      createAt := chunk.created
      systemFingerprint := chunk.systemFingerprint.getD ""
      model := chunk.model
      containStreamUsage := validUsage chunk.usage || last.containStreamUsage
      shouldSendLastResp :=
        if validUsage chunk.usage = true ∧ options.shouldIncludeUsage = false then
          chunk.choices.any fun choice => choice.hasContent || choice.hasReasoning
        else last.shouldSendLastResp }

/-- The last writes: the usage if the client asked for it and no chunk had it, then the mark. -/
def handleFinalResponse (last : LastResponse) (usage : Usage) : List Write :=
  (if options.shouldIncludeUsage = true ∧ last.containStreamUsage = false then
    [.object
      { id := last.responseId
        created := last.createAt
        model := last.model
        systemFingerprint := some last.systemFingerprint
        usage := some usage }]
  else []) ++ [.done]

structure Sent where
  data : String
  writes : List Write

def relayData (data : String) : Emitter ThinkingContentInfo Sent := fun info =>
  ([⟨data, (sendStreamData json options data info).1⟩], (sendStreamData json options data info).2)

structure Relayed where
  sent : List Sent
  final : List Write

def Relayed.writes (relayed : Relayed) : List Write :=
  relayed.sent.flatMap Sent.writes ++ relayed.final

def Relayed.written (relayed : Relayed) : List String :=
  (relayed.sent.filter fun s => s.writes ≠ []).map Sent.data

/-- `upstreamModelName` and `usage` (the one counted from the text) are those of the request. -/
def oaiStreamHandler (upstreamModelName : String) (usage : Usage) (datas : List String) : Relayed :=
  let run := streamLoop (relayData json options) options.isAudioModel datas {}
  let last :=
    handleLastResponse json options run.2.lastStreamData
      { model := upstreamModelName
        containStreamUsage := audioUsage json options run.2.secondLastStreamData }
  { sent := run.1 ++
      (if last.shouldSendLastResp = true then
        (relayData json options run.2.lastStreamData run.2.info).1
      else [])
    final := handleFinalResponse options last usage }

def withholds (data : String) : Bool :=
  match json.unmarshal data with
  | none => false
  | some chunk =>
    validUsage chunk.usage && !options.shouldIncludeUsage &&
      !chunk.choices.any fun choice => choice.hasContent || choice.hasReasoning

end

def StreamChoice.carries (choice : StreamChoice) : Bool :=
  choice.hasContent || choice.hasReasoning || choice.hasToolCalls || choice.finished

def ChunkJson.carries (json : ChunkJson) (data : String) : Bool :=
  match json.unmarshal data with
  | none => false
  | some chunk => chunk.choices.any StreamChoice.carries

section

variable {json : ChunkJson} {options : StreamOptions}

private theorem shouldSendLastResp_eq (data : String) {last : LastResponse}
    (hlast : last.shouldSendLastResp = true) :
    (handleLastResponse json options data last).shouldSendLastResp =
      !withholds json options data := by
  unfold handleLastResponse withholds
  cases json.unmarshal data with
  | none => exact hlast
  | some chunk =>
    dsimp only
    split
    · next h => simp [h.1, h.2]
    next h =>
    rw [hlast]
    cases husage : validUsage chunk.usage <;> cases hinclude : options.shouldIncludeUsage <;>
      simp_all

private theorem forEach_relayData_data (datas : List String) (info : ThinkingContentInfo) :
    (forEach (relayData json options) datas info).1.map Sent.data = datas := by
  induction datas generalizing info with
  | nil => rfl
  | cons data datas ih => simp [forEach, andThen, relayData, ih]

variable {datas : List String}

section

variable (h : ∀ d ∈ datas, d ≠ "")
include h

theorem oaiStreamHandler_sent (upstreamModelName : String) (usage : Usage) :
    (oaiStreamHandler json options upstreamModelName usage datas).sent =
      (forEach (relayData json options) datas.dropLast {}).1 ++
        if withholds json options (datas.getLastD "") = true then []
        else
          (relayData json options (datas.getLastD "")
            (forEach (relayData json options) datas.dropLast {}).2).1 := by
  rcases streamLoop_eq (relayData json options) options.isAudioModel h {} with
    ⟨hsent, hinfo, hlast⟩
  simp only [oaiStreamHandler, hsent, hinfo, hlast]
  rw [shouldSendLastResp_eq _ rfl]
  cases withholds json options (datas.getLastD "") <;> rfl

theorem oaiStreamHandler_data (upstreamModelName : String) (usage : Usage) :
    (oaiStreamHandler json options upstreamModelName usage datas).sent.map Sent.data =
      datas.dropLast ++
        if withholds json options (datas.getLastD "") = true then [] else [datas.getLastD ""] := by
  rw [oaiStreamHandler_sent h, map_append, forEach_relayData_data]
  cases withholds json options (datas.getLastD "") <;> rfl

private theorem oaiStreamHandler_writes {upstreamModelName : String} {usage : Usage} :
    ∀ s ∈ (oaiStreamHandler json options upstreamModelName usage datas).sent,
      ∃ info, s.writes = (sendStreamData json options s.data info).1 := by
  have hrelay : ∀ data, Emitter.Emits
      (fun s : Sent => ∃ info, s.writes = (sendStreamData json options s.data info).1)
      (relayData json options data) := by
    intro data info s hs
    obtain rfl := mem_singleton.mp hs
    exact ⟨info, rfl⟩
  intro s hs
  rw [oaiStreamHandler_sent h] at hs
  rcases mem_append.mp hs with hloop | hlast
  · exact Emitter.Emits.forEach hrelay _ {} s hloop
  split at hlast
  · cases hlast
  · exact hrelay _ _ s hlast

end

private theorem sendStreamData_ne_nil {data : String} (h : json.carries data = true)
    (info : ThinkingContentInfo) : (sendStreamData json options data info).1 ≠ [] := by
  unfold ChunkJson.carries at h
  have hdata : data ≠ "" := by
    rintro rfl
    rw [json.unmarshal_empty] at h
    cases h
  unfold sendStreamData
  rw [if_neg hdata]
  split
  · simp
  cases hchunk : json.unmarshal data with
  | none =>
    rw [hchunk] at h
    cases h
  | some chunk =>
    dsimp only
    split
    · simp
    unfold thinkToContent
    split
    · simp
    split <;> simp

private theorem filter_written {relayed : Relayed}
    (h : ∀ s ∈ relayed.sent, json.carries s.data = true → s.writes ≠ []) :
    relayed.written.filter json.carries = (relayed.sent.map Sent.data).filter json.carries := by
  unfold Relayed.written
  rw [filter_map, filter_map, filter_filter]
  congr 1
  apply filter_congr
  intro s hs
  cases hcarries : json.carries s.data with
  | false => simp [hcarries]
  | true => simp [hcarries, h s hs hcarries]

end

section

variable (json : ChunkJson) (options : StreamOptions)

/-- A last chunk that is not sent has nothing but its usage. -/
def LastSafe (datas : List String) : Prop :=
  ∀ data ∈ datas.getLast?, withholds json options data = true → json.carries data = false

instance (datas : List String) : Decidable (LastSafe json options datas) := by
  unfold LastSafe
  infer_instance

variable {json options}

private theorem flatMap_writes_raw (hforce : options.forceFormat = false)
    (hthink : options.thinkingToContent = false) {sent : List Sent}
    (h : ∀ s ∈ sent, ∃ info, s.writes = (sendStreamData json options s.data info).1) :
    sent.flatMap Sent.writes = ((sent.map Sent.data).filter fun d => d ≠ "").map .data := by
  induction sent with
  | nil => rfl
  | cons s sent ih =>
    rcases h s mem_cons_self with ⟨info, hwrites⟩
    rw [flatMap_cons, ih fun s hs => h s (mem_cons_of_mem _ hs), hwrites]
    by_cases hdata : s.data = ""
    · simp [sendStreamData, hdata]
    · simp [sendStreamData, hforce, hthink, hdata]

private theorem filter_sources {datas : List String} (h : ∀ d ∈ datas, d ≠ "") (held : Bool) :
    (datas.dropLast ++ if held = true then [] else [datas.getLastD ""]).filter (fun d => d ≠ "") =
      if held = true then datas.dropLast else datas := by
  have hkeep : ∀ part : List String, part ⊆ datas → part.filter (fun d => d ≠ "") = part := by
    intro part hpart
    apply filter_eq_self.mpr
    intro d hd
    simpa using h d (hpart hd)
  cases held with
  | true => simpa using hkeep datas.dropLast (dropLast_subset datas)
  | false =>
    rcases eq_nil_or_concat datas with rfl | ⟨init, last, rfl⟩
    · rfl
    · simpa using hkeep (init.concat last) (List.Subset.refl _)

end

/--
The chunks with text, reasoning, fragments of tool calls or a finish reason all reach the client,
once and in order, if and only if the last chunk is sent or has nothing but its usage.  Without
formatting they are written as they came, and only the last one may be missing.
-/
theorem openai_stream_relayed_iff (json : ChunkJson) (options : StreamOptions)
    (upstreamModelName : String) (usage : Usage) (datas : List String) (h : ∀ d ∈ datas, d ≠ "") :
    ((oaiStreamHandler json options upstreamModelName usage datas).written.filter json.carries =
        datas.filter json.carries ↔ LastSafe json options datas) ∧
    (options.forceFormat = false → options.thinkingToContent = false →
      (oaiStreamHandler json options upstreamModelName usage datas).writes =
        (if withholds json options (datas.getLastD "") = true then datas.dropLast
          else datas).map .data ++
          (oaiStreamHandler json options upstreamModelName usage datas).final) := by
  have hsent : ∀ s ∈ (oaiStreamHandler json options upstreamModelName usage datas).sent,
      ∃ info, s.writes = (sendStreamData json options s.data info).1 := oaiStreamHandler_writes h
  constructor
  · rw [filter_written, oaiStreamHandler_data h]
    · rcases eq_nil_or_concat datas with rfl | ⟨init, last, rfl⟩
      · have hempty : json.carries "" = false := by
          rw [ChunkJson.carries, json.unmarshal_empty]
        have hkept : withholds json options "" = false := by
          rw [withholds, json.unmarshal_empty]
        simp [LastSafe, hempty, hkept]
      · cases hheld : withholds json options last with
        | false => simp [LastSafe, hheld]
        | true => cases hcarries : json.carries last <;> simp [LastSafe, hheld, hcarries]
    · intro s hs hcarries
      rcases hsent s hs with ⟨info, hwrites⟩
      rw [hwrites]
      exact sendStreamData_ne_nil hcarries info
  · intro hforce hthink
    rw [Relayed.writes, flatMap_writes_raw hforce hthink hsent, oaiStreamHandler_data h,
      filter_sources h]

def tableJson (table : List (String × StreamResponse)) (h : table.lookup "" = none) :
    ChunkJson where
  unmarshal data := table.lookup data
  unmarshalUsage data := (table.lookup data).map StreamResponse.usage
  unmarshal_empty := h

def helloChunk : StreamResponse where
  choices := [{ delta := { content := some "Hello" } }]

def finishChunk : StreamResponse where
  choices := [{ finishReason := some "stop" }]
  usage := some { promptTokens := 5, completionTokens := 1 }

def usageChunk : StreamResponse where
  usage := some { promptTokens := 5, completionTokens := 1 }

def helloJson : ChunkJson :=
  tableJson [("hello", helloChunk), ("finish", finishChunk), ("usage", usageChunk)] rfl

theorem openai_stream_relayed_usage :
    (oaiStreamHandler helloJson {} "gpt-4o" {} ["hello", "usage"]).written.filter
        helloJson.carries = ["hello"] ∧
      (oaiStreamHandler helloJson {} "gpt-4o" {} ["hello", "usage"]).writes =
        [.data "hello", .done] := by
  have h := openai_stream_relayed_iff helloJson {} "gpt-4o" {} ["hello", "usage"] (by decide)
  constructor
  · exact (h.1.mpr (by decide)).trans (by decide)
  · exact (h.2 rfl rfl).trans (by decide)

/-- The finish reason of the last chunk is lost. -/
theorem openai_stream_relayed_counterexample :
    helloJson.carries "finish" = true ∧
      (oaiStreamHandler helloJson {} "gpt-4o" {} ["hello", "finish"]).writes =
        [.data "hello", .done] := by
  decide

end NewApi.OpenAIStream
