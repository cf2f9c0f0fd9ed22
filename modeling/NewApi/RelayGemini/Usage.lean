import NewApi.RelayGemini.Answer

/-!
# The usage of a Gemini channel

`buildUsageFromGeminiMetadata` and its callers in
`relay/channel/gemini/relay-gemini.go` and `relay-gemini-native.go`: how the
counts that the upstream reports reach the usage that is billed, for an answer
in one response and for a stream.
-/

namespace NewApi.RelayGemini

open Foundation List Dto

universe u

inductive Modality where
  | text
  | audio
  | image
  | other
  deriving DecidableEq

structure GeminiPromptTokensDetails where
  modality : Modality
  tokenCount : Int
  deriving DecidableEq

/-- A count that the upstream does not report is zero. -/
structure GeminiUsageMetadata where
  promptTokenCount : Int := 0
  toolUsePromptTokenCount : Int := 0
  candidatesTokenCount : Int := 0
  totalTokenCount : Int := 0
  thoughtsTokenCount : Int := 0
  cachedContentTokenCount : Int := 0
  promptTokensDetails : List GeminiPromptTokensDetails := []
  toolUsePromptTokensDetails : List GeminiPromptTokensDetails := []
  candidatesTokensDetails : List GeminiPromptTokensDetails := []
  deriving DecidableEq

structure MeteredResponse (α : Type u) extends GeminiChatResponse α where
  usageMetadata : GeminiUsageMetadata := {}

open MeteredResponse

structure GeminiUsage extends Usage where
  reasoningTokens : Int := 0

def addPromptDetail (details : InputTokenDetails) (detail : GeminiPromptTokensDetails) :
    InputTokenDetails :=
  if detail.modality = .audio then
    { details with audioTokens := details.audioTokens + detail.tokenCount }
  else if detail.modality = .text then
    { details with textTokens := details.textTokens + detail.tokenCount }
  else details

def addCandidateDetail (details : OutputTokenDetails) (detail : GeminiPromptTokensDetails) :
    OutputTokenDetails :=
  match detail.modality with
  | .image => { details with imageTokens := details.imageTokens + detail.tokenCount }
  | .audio => { details with audioTokens := details.audioTokens + detail.tokenCount }
  | .text => { details with textTokens := details.textTokens + detail.tokenCount }
  | .other => details

section

variable (metadata : GeminiUsageMetadata)

def promptTokensOf (fallbackPromptTokens : Int) : Int :=
  let promptTokens := metadata.promptTokenCount + metadata.toolUsePromptTokenCount
  if promptTokens ≤ 0 ∧ fallbackPromptTokens > 0 then fallbackPromptTokens else promptTokens

def promptDetailsOf : InputTokenDetails :=
  metadata.toolUsePromptTokensDetails.foldl addPromptDetail
    (metadata.promptTokensDetails.foldl addPromptDetail
      { cachedTokens := metadata.cachedContentTokenCount })

def buildUsageFromGeminiMetadata (fallbackPromptTokens : Int) : GeminiUsage :=
  let promptTokens := promptTokensOf metadata fallbackPromptTokens
  let completionTokens := metadata.candidatesTokenCount + metadata.thoughtsTokenCount
  let details := promptDetailsOf metadata
  { promptTokens := promptTokens
    -- the counts may leave out the answer, the total does not
    completionTokens :=
      if metadata.totalTokenCount > 0 ∧ completionTokens ≤ 0 then
        metadata.totalTokenCount - promptTokens
      else completionTokens
    totalTokens := metadata.totalTokenCount
    reasoningTokens := metadata.thoughtsTokenCount
    promptTokensDetails :=
      if promptTokens > 0 ∧ details.textTokens = 0 ∧ details.audioTokens = 0 then
        { details with textTokens := promptTokens }
      else details
    completionTokenDetails := metadata.candidatesTokensDetails.foldl addCandidateDetail {} }

end

section

variable {α : Type u} (estimatePromptTokens : Int)

def geminiChatHandlerUsage (response : MeteredResponse α) : GeminiUsage :=
  match response.candidates with
  | [] => buildUsageFromGeminiMetadata response.usageMetadata estimatePromptTokens
  | _ :: _ => buildUsageFromGeminiMetadata response.usageMetadata estimatePromptTokens

def geminiTextGenerationHandlerUsage (response : MeteredResponse α) : GeminiUsage :=
  buildUsageFromGeminiMetadata response.usageMetadata estimatePromptTokens

structure StreamTotals where
  usage : GeminiUsage := {}
  imageCount : Nat := 0
  responseText : String := ""

open StreamTotals

def StreamTotals.writeText (t : StreamTotals) (s : String) : StreamTotals :=
  if s ≠ "" then { t with responseText := t.responseText ++ s } else t

def StreamTotals.visitPart (t : StreamTotals) : AnswerPart α → StreamTotals
  | .inlineData mimeType _ =>
    if mimeType ≠ "" then { t with imageCount := t.imageCount + 1 } else t
  | .text s => t.writeText s
  | .thought s => t.writeText s
  | .functionCall _ _ _ => t
  | .executableCode _ _ => t
  | .codeExecutionResult _ => t

def StreamTotals.visit (t : StreamTotals) (response : MeteredResponse α) : StreamTotals :=
  let t := response.candidates.foldl (fun t candidate => candidate.parts.foldl visitPart t) t
  if response.usageMetadata.totalTokenCount ≠ 0 then
    { t with usage := buildUsageFromGeminiMetadata response.usageMetadata estimatePromptTokens }
  else t

variable (estimateTokenByModel : String → Nat)

def responseText2Usage (responseText : String) (promptTokens : Int) : GeminiUsage :=
  { promptTokens := promptTokens
    completionTokens := estimateTokenByModel responseText
    totalTokens := promptTokens + estimateTokenByModel responseText }

def geminiStreamHandlerUsage (estimatePromptTokens : Int) (responses : List (MeteredResponse α)) :
    GeminiUsage :=
  let t := responses.foldl (visit estimatePromptTokens) {}
  let usage :=
    if t.imageCount ≠ 0 ∧ t.usage.completionTokens = 0 then
      { t.usage with completionTokens := t.imageCount * 1400 }
    else t.usage
  if usage.completionTokens ≤ 0 then
    if responses.length > 0 then
      responseText2Usage estimateTokenByModel t.responseText estimatePromptTokens
    else {}
  else usage

end

structure Nonnegative (metadata : GeminiUsageMetadata) : Prop where
  prompt : 0 ≤ metadata.promptTokenCount
  toolUse : 0 ≤ metadata.toolUsePromptTokenCount
  candidates : 0 ≤ metadata.candidatesTokenCount
  total : 0 ≤ metadata.totalTokenCount
  thoughts : 0 ≤ metadata.thoughtsTokenCount
  cached : 0 ≤ metadata.cachedContentTokenCount

structure UsageSound (metadata : GeminiUsageMetadata) (usage : GeminiUsage) : Prop where
  prompt : 0 ≤ usage.promptTokens
  completion : 0 ≤ usage.completionTokens
  reported : 0 < metadata.promptTokenCount →
    usage.promptTokens = metadata.promptTokenCount + metadata.toolUsePromptTokenCount ∧
      usage.promptTokensDetails.cachedTokens = metadata.cachedContentTokenCount

section

variable {α : Type u}

def lastMetadata (responses : List (MeteredResponse α)) : GeminiUsageMetadata :=
  ((responses.map usageMetadata).filter fun m => m ≠ {}).getLast?.getD {}

structure Billed (estimateTokenByModel : String → Nat) (metadata : GeminiUsageMetadata)
    (estimate : Int) (response : MeteredResponse α) (responses : List (MeteredResponse α)) :
    Prop where
  sound : UsageSound metadata (geminiChatHandlerUsage estimate response)
  textSound : UsageSound metadata (geminiTextGenerationHandlerUsage estimate response)
  streamSound : UsageSound metadata
    (geminiStreamHandlerUsage estimateTokenByModel estimate responses)
  same : geminiChatHandlerUsage estimate response =
    geminiStreamHandlerUsage estimateTokenByModel estimate responses
  textSame : geminiTextGenerationHandlerUsage estimate response =
    geminiStreamHandlerUsage estimateTokenByModel estimate responses

/-- The metadata say how long the answer is: they have a total, and either the
tokens of the answer or a total beyond the prompt. -/
structure Counted (metadata : GeminiUsageMetadata) (estimate : Int) : Prop where
  total : 0 < metadata.totalTokenCount
  completion : 0 < metadata.candidatesTokenCount + metadata.thoughtsTokenCount ∨
    promptTokensOf metadata estimate < metadata.totalTokenCount

private theorem chatHandlerUsage_eq (estimate : Int) (response : MeteredResponse α) :
    geminiChatHandlerUsage estimate response =
      buildUsageFromGeminiMetadata response.usageMetadata estimate := by
  unfold geminiChatHandlerUsage
  cases response.candidates <;> rfl

theorem foldl_addPromptDetail_cachedTokens (details : List GeminiPromptTokensDetails)
    (d : InputTokenDetails) : (details.foldl addPromptDetail d).cachedTokens = d.cachedTokens := by
  induction details generalizing d with
  | nil => rfl
  | cons detail details ih =>
    rw [foldl_cons, ih]
    unfold addPromptDetail
    split
    · rfl
    · split <;> rfl

private theorem build_cachedTokens (metadata : GeminiUsageMetadata) (estimate : Int) :
    (buildUsageFromGeminiMetadata metadata estimate).promptTokensDetails.cachedTokens =
      metadata.cachedContentTokenCount := by
  have hdetails : (promptDetailsOf metadata).cachedTokens = metadata.cachedContentTokenCount := by
    unfold promptDetailsOf
    rw [foldl_addPromptDetail_cachedTokens, foldl_addPromptDetail_cachedTokens]
  unfold buildUsageFromGeminiMetadata
  dsimp only
  split <;> exact hdetails

variable {metadata : GeminiUsageMetadata} {estimate : Int}

private theorem promptTokensOf_nonneg (h : Nonnegative metadata) :
    0 ≤ promptTokensOf metadata estimate := by
  have := h.prompt
  have := h.toolUse
  unfold promptTokensOf
  dsimp only
  split <;> omega

private theorem promptTokensOf_reported (h : Nonnegative metadata)
    (hprompt : 0 < metadata.promptTokenCount) :
    promptTokensOf metadata estimate =
      metadata.promptTokenCount + metadata.toolUsePromptTokenCount := by
  have := h.toolUse
  unfold promptTokensOf
  exact if_neg fun hfallback => by omega

theorem counted_iff (h : Nonnegative metadata) :
    Counted metadata estimate ↔ 0 < metadata.totalTokenCount ∧
      0 < (buildUsageFromGeminiMetadata metadata estimate).completionTokens := by
  have := h.candidates
  have := h.thoughts
  simp only [buildUsageFromGeminiMetadata]
  constructor
  · rintro ⟨htotal, hcompletion⟩
    refine ⟨htotal, ?_⟩
    split <;> omega
  · rintro ⟨htotal, hcompletion⟩
    refine ⟨htotal, ?_⟩
    split at hcompletion <;> omega

private theorem build_sound (h : Nonnegative metadata)
    (hcompletion : 0 ≤ (buildUsageFromGeminiMetadata metadata estimate).completionTokens) :
    UsageSound metadata (buildUsageFromGeminiMetadata metadata estimate) :=
  ⟨promptTokensOf_nonneg h, hcompletion, fun hprompt =>
    ⟨promptTokensOf_reported h hprompt, build_cachedTokens metadata estimate⟩⟩

private theorem foldl_visitPart_usage (parts : List (AnswerPart α)) (t : StreamTotals) :
    (parts.foldl StreamTotals.visitPart t).usage = t.usage := by
  induction parts generalizing t with
  | nil => rfl
  | cons part parts ih =>
    have hwrite : ∀ s, (t.writeText s).usage = t.usage := by
      intro s
      unfold StreamTotals.writeText
      split <;> rfl
    rw [foldl_cons, ih]
    cases part with
    | inlineData =>
      unfold StreamTotals.visitPart
      dsimp only
      split <;> rfl
    | text s | thought s => exact hwrite s
    | _ => rfl

def written (estimate : Int) (metadata : GeminiUsageMetadata) : Option GeminiUsage :=
  if metadata.totalTokenCount ≠ 0 then some (buildUsageFromGeminiMetadata metadata estimate)
  else none

private theorem visit_usage (t : StreamTotals) (response : MeteredResponse α) :
    (t.visit estimate response).usage = (written estimate response.usageMetadata).getD t.usage := by
  unfold StreamTotals.visit written
  dsimp only
  split
  · rfl
  · induction response.candidates generalizing t with
    | nil => rfl
    | cons candidate candidates ih => rw [foldl_cons, ih, foldl_visitPart_usage]

private theorem foldl_visit_usage (responses : List (MeteredResponse α)) :
    (responses.foldl (StreamTotals.visit estimate) {}).usage =
      ((responses.map MeteredResponse.usageMetadata).filterMap (written estimate)).getLast?.getD
        {} := by
  rw [filterMap_map]
  exact foldl_overwrite (fun t response => visit_usage t response) {} responses

variable {responses : List (MeteredResponse α)}

theorem getLast?_written (htotal : 0 < metadata.totalTokenCount)
    (hlast : lastMetadata responses = metadata) :
    ((responses.map usageMetadata).filterMap (written estimate)).getLast? =
      some (buildUsageFromGeminiMetadata metadata estimate) := by
  have hsome : ((responses.map usageMetadata).filter fun m => m ≠ {}).getLast? = some metadata := by
    unfold lastMetadata at hlast
    cases hcase : ((responses.map usageMetadata).filter fun m => m ≠ {}).getLast?
      with
    | none =>
      rw [hcase, Option.getD_none] at hlast
      rw [← hlast] at htotal
      exact absurd htotal (by decide)
    | some =>
      rw [hcase, Option.getD_some] at hlast
      rw [hlast]
  obtain ⟨earlier, hearlier⟩ := getLast?_eq_some_iff.mp hsome
  have hfilter : (responses.map usageMetadata).filterMap (written estimate) =
      ((responses.map usageMetadata).filter fun m => m ≠ {}).filterMap (written estimate) := by
    rw [filterMap_filter]
    refine filterMap_congr fun m _ => ?_
    by_cases hm : m = {}
    · simp [hm, written]
    · simp [hm]
  have hwritten : written estimate metadata =
      some (buildUsageFromGeminiMetadata metadata estimate) :=
    if_pos (by omega)
  rw [hfilter, hearlier, filterMap_append, filterMap_cons_some hwritten,
    filterMap_nil, getLast?_concat]

variable (estimateTokenByModel : String → Nat)

theorem streamHandlerUsage_eq (h : Nonnegative metadata) (hcounted : Counted metadata estimate)
    (hlast : lastMetadata responses = metadata) :
    geminiStreamHandlerUsage estimateTokenByModel estimate responses =
      buildUsageFromGeminiMetadata metadata estimate := by
  obtain ⟨htotal, hcompletion⟩ := (counted_iff h).mp hcounted
  have husage : (responses.foldl (StreamTotals.visit estimate) {}).usage =
      buildUsageFromGeminiMetadata metadata estimate := by
    rw [foldl_visit_usage, getLast?_written htotal hlast, Option.getD_some]
  have himages : ¬ ((responses.foldl (StreamTotals.visit estimate) {}).imageCount ≠ 0 ∧
      (buildUsageFromGeminiMetadata metadata estimate).completionTokens = 0) := by
    omega
  unfold geminiStreamHandlerUsage
  dsimp only
  rw [husage, if_neg himages, if_neg (by omega)]

def pictures (α : Type u) (n : Nat) (metadata : GeminiUsageMetadata) : MeteredResponse α where
  candidates := [{ index := 0, parts := List.replicate n (.inlineData "image/png" "") }]
  usageMetadata := metadata

private theorem foldl_pictures (n : Nat) (t : StreamTotals) :
    (List.replicate n (.inlineData "image/png" "" : AnswerPart α)).foldl StreamTotals.visitPart t =
      { t with imageCount := t.imageCount + n } := by
  induction n generalizing t with
  | zero => rfl
  | succ n ih =>
    have hone : t.visitPart (.inlineData "image/png" "" : AnswerPart α) =
        { t with imageCount := t.imageCount + 1 } := rfl
    rw [replicate_succ, foldl_cons, ih, hone, Nat.add_assoc, Nat.add_comm 1 n]

private theorem lastMetadata_pictures (n : Nat) (metadata : GeminiUsageMetadata) :
    lastMetadata [pictures α n metadata] = metadata := by
  by_cases h : metadata = {} <;> simp [lastMetadata, pictures, h]

theorem streamHandlerUsage_pictures {n : Nat} (hn : n ≠ 0)
    (hzero : ((written estimate metadata).getD {}).completionTokens = 0) :
    (geminiStreamHandlerUsage estimateTokenByModel estimate
      [pictures α n metadata]).completionTokens = n * 1400 := by
  have htotals : [pictures α n metadata].foldl (StreamTotals.visit estimate) {} =
      { usage := (written estimate metadata).getD {}, imageCount := n } := by
    unfold pictures written
    rw [foldl_cons, foldl_nil, StreamTotals.visit, foldl_cons, foldl_nil, foldl_pictures]
    dsimp only
    rw [Nat.zero_add]
    split <;> rfl
  have himages : n ≠ 0 ∧ ((written estimate metadata).getD {}).completionTokens = 0 := ⟨hn, hzero⟩
  unfold geminiStreamHandlerUsage
  dsimp only
  rw [htotals]
  dsimp only
  rw [if_pos himages]
  dsimp only
  rw [if_neg (by omega)]

/-- The usage is sound, and the same for one response and for every stream with
the same last metadata, if and only if the metadata count the answer. -/
theorem gemini_usage_sound_iff (h : Nonnegative metadata) :
    (∀ (response : MeteredResponse α) (responses : List (MeteredResponse α)),
      response.usageMetadata = metadata → lastMetadata responses = metadata →
        Billed estimateTokenByModel metadata estimate response responses) ↔
      Counted metadata estimate := by
  constructor
  · intro hbilled
    have hpictures : ∀ n, Billed estimateTokenByModel metadata estimate (pictures α n metadata)
        [pictures α n metadata] := fun n => hbilled _ _ rfl (lastMetadata_pictures n metadata)
    have hnonneg : 0 ≤ (buildUsageFromGeminiMetadata metadata estimate).completionTokens :=
      (hpictures 1).textSound.completion
    rw [counted_iff h]
    by_contra hcounted
    have hzero : ((written estimate metadata).getD {}).completionTokens = 0 := by
      have := h.total
      unfold written
      split
      · rw [Option.getD_some]
        omega
      · rfl
    -- one picture and two pictures are billed differently, but have the same metadata
    have hone := streamHandlerUsage_pictures (α := α) estimateTokenByModel one_ne_zero hzero
    have htwo := streamHandlerUsage_pictures (α := α) estimateTokenByModel two_ne_zero hzero
    rw [← (hpictures 1).textSame] at hone
    rw [← (hpictures 2).textSame] at htwo
    have hsame : geminiTextGenerationHandlerUsage estimate (pictures α 1 metadata) =
        geminiTextGenerationHandlerUsage estimate (pictures α 2 metadata) := rfl
    rw [hsame, htwo] at hone
    exact absurd hone (by decide)
  · intro hcounted response responses hmetadata hlast
    have hstream := streamHandlerUsage_eq estimateTokenByModel h hcounted hlast
    have hchat := chatHandlerUsage_eq estimate response
    rw [hmetadata] at hchat
    have htext : geminiTextGenerationHandlerUsage estimate response =
        buildUsageFromGeminiMetadata metadata estimate := by
      rw [geminiTextGenerationHandlerUsage, hmetadata]
    have hsound := build_sound h ((counted_iff h).mp hcounted).2.le
    refine ⟨?_, ?_, ?_, hchat.trans hstream.symm, htext.trans hstream.symm⟩
    · rw [hchat]
      exact hsound
    · rw [htext]
      exact hsound
    · rw [hstream]
      exact hsound

end

def reported : GeminiUsageMetadata where
  promptTokenCount := 12
  totalTokenCount := 30
  cachedContentTokenCount := 2

theorem gemini_usage_sound_reported :
    Billed (α := String) String.length reported 20 { candidates := [], usageMetadata := reported }
      [{ candidates := [{ index := 0, parts := [.text "Hi"] }] },
        { candidates := [], usageMetadata := reported }] :=
  (gemini_usage_sound_iff String.length
    ⟨by decide, by decide, by decide, by decide, by decide, by decide⟩).mpr
    ⟨by decide, .inr (by decide)⟩ _ _ rfl (by decide)

/-- The estimate of the prompt is greater than the reported total; and a
picture in a stream without tokens for the answer is billed, in one response
not. -/
theorem answer_billed_below_zero :
    (buildUsageFromGeminiMetadata { totalTokenCount := 5 } 100).completionTokens = -95 ∧
      (geminiChatHandlerUsage 10 (pictures String 1
        { promptTokenCount := 10, totalTokenCount := 10 })).completionTokens = 0 ∧
      (geminiStreamHandlerUsage String.length 10 [pictures String 1
        { promptTokenCount := 10, totalTokenCount := 10 }]).completionTokens = 1400 := by
  decide

end NewApi.RelayGemini
