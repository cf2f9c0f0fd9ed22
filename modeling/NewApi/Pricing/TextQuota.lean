import NewApi.Dto.ChatStream
import NewApi.Foundation.Decimal
import NewApi.Foundation.GoString

/-!
# The quota of a text request

`calculateTextQuotaSummary` in `service/text_quota.go`.
-/

namespace NewApi.Pricing

open Foundation Dto

/-!
## Tool prices

The prices of `setting/operation_setting/tools.go`: dollars for a thousand calls
of a tool, for one generated image, and for a million audio tokens.
-/

def priceByPrefix (entries : List (String × ℚ)) (modelName : String) : Option ℚ :=
  (entries.find? fun e => hasPrefix modelName e.1).map Prod.snd

/-- The index that `RebuildToolPriceIndex` builds, the longest prefixes first. -/
structure ToolPriceIndex where
  defaults : String → Option ℚ
  prefixes : String → List (String × ℚ)

def getToolPriceForModel (index : ToolPriceIndex) (toolName modelName : String) : ℚ :=
  match if modelName = "" then none else priceByPrefix (index.prefixes toolName) modelName with
  | some price => price
  | none => (index.defaults toolName).getD 0

def getToolPrice (index : ToolPriceIndex) (toolName : String) : ℚ :=
  getToolPriceForModel index toolName ""

def defaultToolPrices : ToolPriceIndex where
  defaults toolName :=
    [("web_search", 10), ("web_search_preview", 10), ("file_search", 2.5),
      ("google_search", 14)].lookup toolName
  prefixes toolName :=
    if toolName = "web_search_preview" then
      [("gpt-4.1-mini", 25), ("gpt-4o-mini", 25), ("gpt-4.1", 25), ("gpt-4o", 25)]
    else []

def imageSizes (square portrait : ℚ) : List (String × ℚ) :=
  [("1024x1024", square), ("1024x1536", portrait), ("1536x1024", portrait)]

def imagePrices : List (String × List (String × ℚ)) :=
  [("low", imageSizes 0.011 0.016), ("medium", imageSizes 0.042 0.063),
    ("high", imageSizes 0.167 0.25)]

def getGPTImage1PriceOnceCall (quality size : String) : ℚ :=
  ((imagePrices.lookup quality).bind fun sizes => sizes.lookup size).getD 0.167

def audioPrices : List (String × ℚ) :=
  [("gemini-2.5-flash-preview-native-audio", 3), ("gemini-2.5-flash-preview-lite", 0.5),
    ("gemini-2.5-flash-preview", 1), ("gemini-2.5-flash", 1), ("gemini-2.0-flash", 0.7),
    ("gemini-robotics-er-1.5", 1)]

def getGeminiInputAudioPricePerMillionTokens (modelName : String) : ℚ :=
  (priceByPrefix audioPrices modelName).getD 0

structure ToolPriceIndex.Nonneg (index : ToolPriceIndex) : Prop where
  defaults : ∀ toolName, ∀ price ∈ index.defaults toolName, 0 ≤ price
  prefixes : ∀ toolName, ∀ e ∈ index.prefixes toolName, 0 ≤ e.2

theorem getToolPriceForModel_nonneg {index : ToolPriceIndex} (h : index.Nonneg)
    (toolName modelName : String) : 0 ≤ getToolPriceForModel index toolName modelName := by
  unfold getToolPriceForModel
  split
  · next price hprice =>
    split at hprice
    · cases hprice
    · obtain ⟨e, hfind, rfl⟩ := Option.map_eq_some_iff.mp hprice
      exact h.prefixes toolName e (List.mem_of_find?_eq_some hfind)
  · cases hdefault : index.defaults toolName with
    | none => exact le_refl 0
    | some price => exact h.defaults toolName price hdefault

theorem mem_of_lookup {α : Type} {table : List (String × α)} {key : String} {value : α}
    (h : table.lookup key = some value) : (key, value) ∈ table := by
  obtain ⟨before, after, rfl, -⟩ := List.lookup_eq_some_iff.mp h
  simp

theorem defaultToolPrices_nonneg : defaultToolPrices.Nonneg where
  defaults toolName price h := by
    have hprices : ∀ e ∈ [("web_search", (10 : ℚ)), ("web_search_preview", 10),
        ("file_search", 2.5), ("google_search", 14)], 0 ≤ e.2 := by decide +kernel
    exact hprices _ (mem_of_lookup h)
  prefixes toolName e h := by
    simp only [defaultToolPrices] at h
    split at h
    · revert e
      decide +kernel
    · cases h

theorem getGPTImage1PriceOnceCall_nonneg (quality size : String) :
    0 ≤ getGPTImage1PriceOnceCall quality size := by
  have hprices : ∀ sizes ∈ imagePrices, ∀ price ∈ sizes.2, 0 ≤ price.2 := by decide +kernel
  unfold getGPTImage1PriceOnceCall
  cases hprice : (imagePrices.lookup quality).bind fun sizes => sizes.lookup size with
  | none => norm_num
  | some =>
    obtain ⟨sizes, hquality, hsize⟩ := Option.bind_eq_some_iff.mp hprice
    exact hprices _ (mem_of_lookup hquality) _ (mem_of_lookup hsize)

inductive RelayFormat where
  | openAI
  | claude
  | gemini
  | openAIResponses
  | openAIResponsesCompaction
  | openAIAudio
  | openAIImage
  | openAIRealtime
  | rerank
  | embedding
  | task
  | mjProxy
  deriving DecidableEq

structure PriceData where
  modelPrice : ℚ := 0
  modelRatio : ℚ := 0
  completionRatio : ℚ := 0
  cacheRatio : ℚ := 0
  cacheCreationRatio : ℚ := 0
  cacheCreation5mRatio : ℚ := 0
  cacheCreation1hRatio : ℚ := 0
  imageRatio : ℚ := 0
  otherRatios : List ℚ := []
  usePrice : Bool := false
  groupRatio : ℚ := 1

/-- `channelType` is missing without channel information, `builtInTools` (the call
counts of the tools) without usage information of the Responses API. -/
structure TextRelayInfo where
  originModelName : String
  priceData : PriceData
  finalRequestRelayFormat : Option RelayFormat := none
  requestConversionChain : List RelayFormat := []
  relayFormat : RelayFormat := .openAI
  channelType : Option Nat := none
  builtInTools : Option (String → Option Int) := none
  estimatePromptTokens : Int := 0

structure TextContext where
  claudeWebSearchRequests : Int := 0
  imageGenerationCall : Bool := false
  imageGenerationCallQuality : String := ""
  imageGenerationCallSize : String := ""

structure PriceSettings where
  quotaPerUnit : ℚ
  toolPrices : ToolPriceIndex
  defaultModelRatio : String → Option ℚ

structure TextQuotaSummary where
  promptTokens : Int
  completionTokens : Int
  totalTokens : Int
  cacheTokens : Int
  cacheCreationTokens : Int
  cacheCreationTokens5m : Int
  cacheCreationTokens1h : Int
  imageTokens : Int
  audioTokens : Int
  modelName : String
  completionRatio : ℚ
  cacheRatio : ℚ
  imageRatio : ℚ
  modelRatio : ℚ
  groupRatio : ℚ
  modelPrice : ℚ
  cacheCreationRatio : ℚ
  cacheCreationRatio5m : ℚ
  cacheCreationRatio1h : ℚ
  quota : Int := 0
  isClaudeUsageSemantic : Bool
  usageSemantic : String
  webSearchPrice : ℚ := 0
  webSearchCallCount : Int := 0
  claudeWebSearchPrice : ℚ := 0
  claudeWebSearchCallCount : Int := 0
  fileSearchPrice : ℚ := 0
  fileSearchCallCount : Int := 0
  audioInputPrice : ℚ := 0
  imageGenerationCallPrice : ℚ := 0
  toolCallSurchargeQuota : ℚ := 0

def TextRelayInfo.getFinalRequestRelayFormat (info : TextRelayInfo) : RelayFormat :=
  info.finalRequestRelayFormat.getD (info.requestConversionChain.getLast?.getD info.relayFormat)

def usageSemanticFromUsage (info : TextRelayInfo) (usage : Option Usage) : String :=
  match usage.map Usage.usageSemantic with
  | none | some "" =>
    if info.getFinalRequestRelayFormat = .claude then "anthropic" else "openai"
  | some semantic => semantic

def isLegacyClaudeDerivedOpenAIUsage (info : TextRelayInfo) (usage : Usage) : Bool :=
  info.getFinalRequestRelayFormat ≠ .claude ∧ usage.usageSource = "" ∧ usage.usageSemantic = "" ∧
    (0 < usage.claudeCacheCreation5mTokens ∨ 0 < usage.claudeCacheCreation1hTokens)

section

variable (settings : PriceSettings)

def hasCustomModelRatio (modelName : String) (currentRatio : ℚ) : Bool :=
  match settings.defaultModelRatio modelName with
  | none => true
  | some defaultRatio => currentRatio ≠ defaultRatio

def calcOpenRouterCacheCreateTokens (usage : Usage) (priceData : PriceData) : Int :=
  if priceData.cacheCreationRatio = 1 then 0
  else
    let quotaPrice := priceData.modelRatio / settings.quotaPerUnit
    let promptCacheCreatePrice := quotaPrice * priceData.cacheCreationRatio
    let promptCacheReadPrice := quotaPrice * priceData.cacheRatio
    let completionPrice := quotaPrice * priceData.completionRatio
    roundAway
      ((usage.cost - usage.promptTokens * quotaPrice +
          usage.promptTokensDetails.cachedTokens * (quotaPrice - promptCacheReadPrice) -
          usage.completionTokens * completionPrice) /
        (promptCacheCreatePrice - quotaPrice))

section

variable (info : TextRelayInfo)

def usageOrEstimate (usage : Option Usage) : Usage :=
  usage.getD { promptTokens := info.estimatePromptTokens, totalTokens := info.estimatePromptTokens }

def initialSummary (usage : Option Usage) : TextQuotaSummary :=
  let price := info.priceData
  let semantic := usageSemanticFromUsage info usage
  let counts := usageOrEstimate info usage
  { promptTokens := counts.promptTokens
    completionTokens := counts.completionTokens
    totalTokens := counts.promptTokens + counts.completionTokens
    cacheTokens := counts.promptTokensDetails.cachedTokens
    cacheCreationTokens := counts.promptTokensDetails.cachedCreationTokens
    cacheCreationTokens5m := counts.claudeCacheCreation5mTokens
    cacheCreationTokens1h := counts.claudeCacheCreation1hTokens
    imageTokens := counts.promptTokensDetails.imageTokens
    audioTokens := counts.promptTokensDetails.audioTokens
    modelName := info.originModelName
    completionRatio := price.completionRatio
    cacheRatio := price.cacheRatio
    imageRatio := price.imageRatio
    modelRatio := price.modelRatio
    groupRatio := price.groupRatio
    modelPrice := price.modelPrice
    cacheCreationRatio := price.cacheCreationRatio
    cacheCreationRatio5m := price.cacheCreation5mRatio
    cacheCreationRatio1h := price.cacheCreation1hRatio
    isClaudeUsageSemantic := semantic = "anthropic"
    usageSemantic := semantic }

def channelTypeOpenRouter : Nat := 20

def isOpenRouterClaudeBilling (summary : TextQuotaSummary) : Bool :=
  info.channelType = some channelTypeOpenRouter ∧ summary.isClaudeUsageSemantic = true

/-- Whether cache creation tokens are inferred from the cost.  The source also
asks for `usage.Cost != 0`, which holds for every decoded cost: none equals the
integer 0. -/
def infersCacheCreation (summary : TextQuotaSummary) : Bool :=
  isOpenRouterClaudeBilling info summary ∧ summary.cacheCreationTokens = 0 ∧
    info.priceData.cacheCreationRatio ≠ 1 ∧
    ¬ (info.priceData.usePrice ∨
      hasCustomModelRatio settings summary.modelName info.priceData.modelRatio)

def openRouterCacheCreation (usage : Usage) (summary : TextQuotaSummary) : Int :=
  let maybeCacheCreationTokens := calcOpenRouterCacheCreateTokens settings usage info.priceData
  if infersCacheCreation settings info summary ∧ 0 ≤ maybeCacheCreationTokens ∧
      maybeCacheCreationTokens ≤ summary.promptTokens - summary.cacheTokens then
    maybeCacheCreationTokens
  else summary.cacheCreationTokens

def openRouterSummary (usage : Usage) (summary : TextQuotaSummary) : TextQuotaSummary :=
  let cacheCreationTokens := openRouterCacheCreation settings info usage summary
  { summary with
    promptTokens :=
      if isOpenRouterClaudeBilling info summary then
        summary.promptTokens - summary.cacheTokens - cacheCreationTokens
      else summary.promptTokens
    cacheCreationTokens := cacheCreationTokens }

end

end

section

variable (settings : PriceSettings) (ctx : TextContext) (info : TextRelayInfo)

def calls (tool : String) : Option Int :=
  (info.builtInTools.bind fun tools => tools tool).filter fun count => 0 < count

def webSearchCalls (modelName : String) : Option (Int × ℚ) :=
  let count :=
    if info.builtInTools.isSome then calls info "web_search_preview"
    else if hasSuffix modelName "search-preview" then some 1
    else none
  count.map fun n => (n, getToolPriceForModel settings.toolPrices "web_search_preview" modelName)

def claudeWebSearchCalls : Option (Int × ℚ) :=
  if 0 < ctx.claudeWebSearchRequests then
    some (ctx.claudeWebSearchRequests, getToolPrice settings.toolPrices "web_search")
  else none

def fileSearchCalls : Option (Int × ℚ) :=
  (calls info "file_search").map fun n => (n, getToolPrice settings.toolPrices "file_search")

def callsQuota (groupRatio : ℚ) : Option (Int × ℚ) → ℚ
  | none => 0
  | some (count, price) => price * count / 1000 * groupRatio * settings.quotaPerUnit

def imageGenerationPrice : Option ℚ :=
  if ctx.imageGenerationCall = true then
    some (getGPTImage1PriceOnceCall ctx.imageGenerationCallQuality ctx.imageGenerationCallSize)
  else none

def imageGenerationQuota (groupRatio : ℚ) : ℚ :=
  (imageGenerationPrice ctx).getD 0 * groupRatio * settings.quotaPerUnit

def calculateTextToolCallSurcharge (modelName : String) (groupRatio : ℚ) : ℚ :=
  callsQuota settings groupRatio (webSearchCalls settings info modelName) +
    callsQuota settings groupRatio (claudeWebSearchCalls settings ctx) +
    callsQuota settings groupRatio (fileSearchCalls settings info) +
    imageGenerationQuota settings ctx groupRatio

def toolCallSummary (summary : TextQuotaSummary) : TextQuotaSummary :=
  let webSearch := webSearchCalls settings info summary.modelName
  let claudeWebSearch := claudeWebSearchCalls settings ctx
  let fileSearch := fileSearchCalls settings info
  { summary with
    webSearchCallCount := (webSearch.map Prod.fst).getD 0
    webSearchPrice := (webSearch.map Prod.snd).getD 0
    claudeWebSearchCallCount := ctx.claudeWebSearchRequests
    claudeWebSearchPrice := (claudeWebSearch.map Prod.snd).getD 0
    fileSearchCallCount := (fileSearch.map Prod.fst).getD 0
    fileSearchPrice := (fileSearch.map Prod.snd).getD 0
    imageGenerationCallPrice := (imageGenerationPrice ctx).getD 0
    toolCallSurchargeQuota :=
      calculateTextToolCallSurcharge settings ctx info summary.modelName summary.groupRatio }

end

/-- Tokens that leave the base tokens, and what is added for them. -/
structure Share where
  taken : ℚ := 0
  priced : ℚ := 0

section

variable (summary : TextQuotaSummary) (included : Bool)

/-- Cached tokens; `included` if the prompt tokens include them. -/
def cachedShare : Share :=
  if summary.cacheTokens = 0 then {}
  else
    { taken := if included = true then summary.cacheTokens else 0
      priced := summary.cacheTokens * summary.cacheRatio }

def remainingCacheCreation : Int :=
  let remaining :=
    summary.cacheCreationTokens - summary.cacheCreationTokens5m - summary.cacheCreationTokens1h
  if remaining < 0 then 0 else remaining

def cacheCreationShare : Share :=
  if summary.cacheCreationTokens = 0 ∧
      ¬ (0 < summary.cacheCreationTokens5m ∨ 0 < summary.cacheCreationTokens1h) then {}
  else if included = true then
    { taken := summary.cacheCreationTokens
      priced := summary.cacheCreationTokens * summary.cacheCreationRatio }
  else
    { priced := remainingCacheCreation summary * summary.cacheCreationRatio +
        summary.cacheCreationTokens5m * summary.cacheCreationRatio5m +
        summary.cacheCreationTokens1h * summary.cacheCreationRatio1h }

def imageShare : Share :=
  if summary.imageTokens = 0 then {}
  else { taken := summary.imageTokens, priced := summary.imageTokens * summary.imageRatio }

def audioShare (quotaPerUnit : ℚ) : Share :=
  if summary.audioTokens ≠ 0 ∧ 0 < summary.audioInputPrice then
    { taken := summary.audioTokens
      priced := summary.audioInputPrice / 1000000 * summary.audioTokens * summary.groupRatio *
        quotaPerUnit }
  else {}

def ratioQuotaDecimal (quotaPerUnit : ℚ) (otherRatios : List ℚ) : ℚ :=
  let cached := cachedShare summary included
  let cacheCreation := cacheCreationShare summary included
  let image := imageShare summary
  let audio := audioShare summary quotaPerUnit
  let baseTokens :=
    summary.promptTokens - cached.taken - cacheCreation.taken - image.taken - audio.taken
  let promptQuota := baseTokens + cached.priced + image.priced + cacheCreation.priced
  let completionQuota := summary.completionTokens * summary.completionRatio
  otherRatios.foldl (· * ·)
    ((promptQuota + completionQuota) * (summary.modelRatio * summary.groupRatio) +
      summary.toolCallSurchargeQuota + audio.priced)

def priceQuotaDecimal (quotaPerUnit : ℚ) (otherRatios : List ℚ) : ℚ :=
  otherRatios.foldl (· * ·)
    (summary.modelPrice * quotaPerUnit * summary.groupRatio + summary.toolCallSurchargeQuota)

end

def roundedQuota (x : ℚ) : Int := intPart (roundAway x)

def clampedDecimal (ratio x : ℚ) : ℚ := if ratio ≠ 0 ∧ x ≤ 0 then 1 else x

def clampedQuota (ratio : ℚ) (totalTokens quota : Int) : Int :=
  if totalTokens = 0 then 0 else if ratio ≠ 0 ∧ quota = 0 then 1 else quota

section

variable (settings : PriceSettings) (ctx : TextContext) (info : TextRelayInfo)
  (usage : Option Usage)

def unpricedSummary : TextQuotaSummary :=
  let counted :=
    openRouterSummary settings info (usageOrEstimate info usage) (initialSummary info usage)
  let summary := toolCallSummary settings ctx info counted
  { summary with
    audioInputPrice :=
      if info.priceData.usePrice = false ∧ summary.audioTokens ≠ 0 then
        getGeminiInputAudioPricePerMillionTokens summary.modelName
      else 0 }

def includesCached : Bool :=
  usageSemanticFromUsage info usage ≠ "anthropic" ∧
    ¬ isLegacyClaudeDerivedOpenAIUsage info (usageOrEstimate info usage)

def textQuotaDecimal : ℚ :=
  ratioQuotaDecimal (unpricedSummary settings ctx info usage) (includesCached info usage)
    settings.quotaPerUnit info.priceData.otherRatios

def modeQuota : Int :=
  let summary := unpricedSummary settings ctx info usage
  if info.priceData.usePrice = false then
    roundedQuota
      (clampedDecimal (summary.modelRatio * summary.groupRatio)
        (textQuotaDecimal settings ctx info usage))
  else
    roundedQuota (priceQuotaDecimal summary settings.quotaPerUnit info.priceData.otherRatios)

def calculateTextQuotaSummary : TextQuotaSummary :=
  let summary := unpricedSummary settings ctx info usage
  { summary with
    quota :=
      clampedQuota (summary.modelRatio * summary.groupRatio) summary.totalTokens
        (modeQuota settings ctx info usage) }

end

end NewApi.Pricing
