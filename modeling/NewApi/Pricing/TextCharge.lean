import Mathlib.Tactic.LinearCombination
import NewApi.Pricing.TextQuota

/-!
# Signs and growth of the text quota

The exact amount grows with the completion tokens and falls with the cached ones;
the two clamps around the rounding amount to `charge`, which keeps the order.
-/

namespace NewApi.Pricing

open Foundation Dto

theorem foldl_mul_mono {ratios : List ℚ} (h : ∀ r ∈ ratios, 0 < r) {x y : ℚ} (hxy : x ≤ y) :
    ratios.foldl (· * ·) x ≤ ratios.foldl (· * ·) y := by
  induction ratios generalizing x y with
  | nil => exact hxy
  | cons r ratios ih =>
    have hr : 0 < r := h r List.mem_cons_self
    exact ih (fun r' hr' => h r' (List.mem_cons_of_mem r hr'))
      (mul_le_mul_of_nonneg_right hxy hr.le)

private theorem foldl_mul_zero (ratios : List ℚ) : ratios.foldl (· * ·) 0 = 0 := by
  induction ratios with
  | nil => rfl
  | cons r ratios ih => simpa using ih

theorem roundedQuota_of_fits {x : ℚ} (hnonneg : 0 ≤ x) (hfits : roundAway x < 2 ^ 63) :
    roundedQuota x = roundAway x := by
  have hround := roundAway_nonneg hnonneg
  rw [roundedQuota, intPart_intCast, wrap64_of_fits ⟨by omega, hfits⟩]

private theorem clampedQuota_eq_charge {ratio x : ℚ} {totalTokens : Int} (hzero : ratio = 0 → 0 ≤ x)
    (hfits : roundAway x < 2 ^ 63) (htotal : totalTokens ≠ 0) :
    clampedQuota ratio totalTokens (roundedQuota (clampedDecimal ratio x)) =
      charge (ratio ≠ 0) x := by
  rw [clampedQuota, if_neg htotal]
  by_cases hratio : ratio = 0
  · have hx := hzero hratio
    simp only [hratio, clampedDecimal, charge, ne_eq, not_true, false_and, if_false,
      decide_false, Bool.false_eq_true, roundedQuota_of_fits hx hfits]
  simp only [clampedDecimal, charge, ne_eq, hratio, not_false_eq_true, true_and, decide_true,
    if_true]
  obtain hx | hx := le_or_gt x 0
  · have hround := roundAway_nonpos hx
    have hone : roundedQuota 1 = 1 := by decide +kernel
    rw [if_pos hx, hone, if_neg (by decide)]
    omega
  · have hround := roundAway_nonneg hx.le
    rw [if_neg (not_le.mpr hx), roundedQuota_of_fits hx.le hfits]
    split <;> omega

structure NonnegPrices (settings : PriceSettings) (price : PriceData) : Prop where
  modelRatio : 0 ≤ price.modelRatio
  groupRatio : 0 ≤ price.groupRatio
  completionRatio : 0 ≤ price.completionRatio
  otherRatios : ∀ r ∈ price.otherRatios, 0 < r
  quotaPerUnit : 0 ≤ settings.quotaPerUnit
  toolPrices : settings.toolPrices.Nonneg

structure NonnegTokens (usage : Usage) : Prop where
  prompt : 0 ≤ usage.promptTokens
  completion : 0 ≤ usage.completionTokens
  cached : 0 ≤ usage.promptTokensDetails.cachedTokens
  cacheCreation : 0 ≤ usage.promptTokensDetails.cachedCreationTokens
  image : 0 ≤ usage.promptTokensDetails.imageTokens
  audio : 0 ≤ usage.promptTokensDetails.audioTokens

section

variable {settings : PriceSettings} {ctx : TextContext} {info : TextRelayInfo}

theorem calls_pos {tool : String} {count : Int} (h : calls info tool = some count) : 0 < count := by
  simpa using (Option.filter_eq_some_iff.mp h).2

section

variable (h : settings.toolPrices.Nonneg)
include h

private theorem webSearchCalls_nonneg (modelName : String) :
    ∀ c ∈ webSearchCalls settings info modelName, 0 ≤ c.1 ∧ 0 ≤ c.2 := by
  intro c hc
  obtain ⟨count, hcount, rfl⟩ := Option.map_eq_some_iff.mp hc
  refine ⟨?_, getToolPriceForModel_nonneg h _ modelName⟩
  split at hcount
  · exact (calls_pos hcount).le
  split at hcount
  · cases hcount
    exact zero_le_one
  · cases hcount

private theorem claudeWebSearchCalls_nonneg :
    ∀ c ∈ claudeWebSearchCalls settings ctx, 0 ≤ c.1 ∧ 0 ≤ c.2 := by
  intro c hc
  unfold claudeWebSearchCalls at hc
  split at hc
  · next hcount =>
    cases hc
    exact ⟨hcount.le, getToolPriceForModel_nonneg h _ _⟩
  · cases hc

theorem fileSearchCalls_nonneg : ∀ c ∈ fileSearchCalls settings info, 0 ≤ c.1 ∧ 0 ≤ c.2 := by
  intro c hc
  obtain ⟨count, hcount, rfl⟩ := Option.map_eq_some_iff.mp hc
  exact ⟨(calls_pos hcount).le, getToolPriceForModel_nonneg h _ _⟩

end

variable {groupRatio quotaPerUnit : ℚ} {usage : Option Usage} {tokens : Usage} {cached : Int}

variable {summary : TextQuotaSummary} {counts : Usage}

private theorem audioShare_priced_nonneg (haudio : 0 ≤ summary.audioTokens)
    (hgroup : 0 ≤ summary.groupRatio) (hunit : 0 ≤ quotaPerUnit) :
    0 ≤ (audioShare summary quotaPerUnit).priced := by
  unfold audioShare
  split
  · next hpriced =>
    have hprice := hpriced.2.le
    have htokens : (0 : ℚ) ≤ summary.audioTokens := by exact_mod_cast haudio
    show 0 ≤ summary.audioInputPrice / 1000000 * summary.audioTokens * summary.groupRatio *
      quotaPerUnit
    positivity
  · exact le_refl 0

def totalTokens (info : TextRelayInfo) (usage : Option Usage) : Int :=
  (usageOrEstimate info usage).promptTokens + (usageOrEstimate info usage).completionTokens

theorem quota_eq_zero (htotal : totalTokens info usage = 0) :
    (calculateTextQuotaSummary settings ctx info usage).quota = 0 :=
  if_pos htotal

section

variable (h : NonnegPrices settings info.priceData)
include h

private theorem surcharge_nonneg (modelName : String) (hgroup : 0 ≤ groupRatio) :
    0 ≤ calculateTextToolCallSurcharge settings ctx info modelName groupRatio := by
  have hunit := h.quotaPerUnit
  have hcalls : ∀ {charged : Option (Int × ℚ)}, (∀ c ∈ charged, 0 ≤ c.1 ∧ 0 ≤ c.2) →
      0 ≤ callsQuota settings groupRatio charged := by
    intro charged hcharged
    cases charged with
    | none => exact le_refl 0
    | some c =>
      obtain ⟨hcount, hprice⟩ := hcharged c rfl
      have hcount' : (0 : ℚ) ≤ c.1 := by exact_mod_cast hcount
      unfold callsQuota
      positivity
  unfold calculateTextToolCallSurcharge
  apply add_nonneg
  · apply add_nonneg
    · apply add_nonneg
      · exact hcalls (webSearchCalls_nonneg h.toolPrices modelName)
      · exact hcalls (claudeWebSearchCalls_nonneg h.toolPrices)
    · exact hcalls (fileSearchCalls_nonneg h.toolPrices)
  · have hprice : 0 ≤ (imageGenerationPrice ctx).getD 0 := by
      unfold imageGenerationPrice
      split
      · exact getGPTImage1PriceOnceCall_nonneg _ _
      · exact le_refl 0
    unfold imageGenerationQuota
    positivity

theorem textQuotaDecimal_nonneg (htokens : NonnegTokens (usageOrEstimate info usage))
    (hratio : info.priceData.modelRatio * info.priceData.groupRatio = 0) :
    0 ≤ textQuotaDecimal settings ctx info usage := by
  have hsurcharge : 0 ≤ calculateTextToolCallSurcharge settings ctx info info.originModelName
      info.priceData.groupRatio := surcharge_nonneg h info.originModelName h.groupRatio
  have haudio : 0 ≤
      (audioShare (unpricedSummary settings ctx info usage) settings.quotaPerUnit).priced :=
    audioShare_priced_nonneg htokens.audio h.groupRatio h.quotaPerUnit
  unfold textQuotaDecimal ratioQuotaDecimal
  rw [← foldl_mul_zero info.priceData.otherRatios]
  apply foldl_mul_mono h.otherRatios
  show 0 ≤ _ * (info.priceData.modelRatio * info.priceData.groupRatio) +
    calculateTextToolCallSurcharge settings ctx info info.originModelName
      info.priceData.groupRatio + _
  rw [hratio, mul_zero, zero_add]
  exact add_nonneg hsurcharge haudio

variable (hmode : info.priceData.usePrice = false)
include hmode

theorem quota_eq_charge (htokens : NonnegTokens (usageOrEstimate info usage))
    (hfits : roundAway (textQuotaDecimal settings ctx info usage) < 2 ^ 63)
    (htotal : totalTokens info usage ≠ 0) :
    (calculateTextQuotaSummary settings ctx info usage).quota =
      charge (info.priceData.modelRatio * info.priceData.groupRatio ≠ 0)
        (textQuotaDecimal settings ctx info usage) := by
  have hquota : modeQuota settings ctx info usage = _ := if_pos hmode
  unfold calculateTextQuotaSummary
  rw [hquota]
  exact clampedQuota_eq_charge (textQuotaDecimal_nonneg h htokens) hfits htotal

theorem quota_nonneg (htokens : NonnegTokens (usageOrEstimate info usage))
    (hfits : roundAway (textQuotaDecimal settings ctx info usage) < 2 ^ 63) :
    0 ≤ (calculateTextQuotaSummary settings ctx info usage).quota := by
  by_cases htotal : totalTokens info usage = 0
  · rw [quota_eq_zero htotal]
  rw [quota_eq_charge h hmode htokens hfits htotal]
  apply charge_nonneg
  intro hratio
  exact textQuotaDecimal_nonneg h htokens (not_not.mp (of_decide_eq_false hratio))

theorem quota_le_quota {less more : Option Usage} (hless : NonnegTokens (usageOrEstimate info less))
    (hmore : NonnegTokens (usageOrEstimate info more))
    (hfits : roundAway (textQuotaDecimal settings ctx info more) < 2 ^ 63)
    (htotal : totalTokens info less = 0 ∨ totalTokens info more ≠ 0)
    (hle : textQuotaDecimal settings ctx info less ≤ textQuotaDecimal settings ctx info more) :
    (calculateTextQuotaSummary settings ctx info less).quota ≤
      (calculateTextQuotaSummary settings ctx info more).quota := by
  by_cases hzero : totalTokens info less = 0
  · rw [quota_eq_zero hzero]
    exact quota_nonneg h hmode hmore hfits
  · have hfits' := (roundAway_mono hle).trans_lt hfits
    rw [quota_eq_charge h hmode hless hfits' hzero,
      quota_eq_charge h hmode hmore hfits (htotal.resolve_left hzero)]
    exact charge_mono _ hle

end

theorem openRouterCacheCreation_of_not_infers {usage : Usage}
    (h : infersCacheCreation settings info summary = false) :
    openRouterCacheCreation settings info usage summary = summary.cacheCreationTokens := by
  unfold openRouterCacheCreation
  rw [if_neg]
  simp [h]

private theorem unpricedSummary_completion (completion : Int)
    (h : infersCacheCreation settings info (initialSummary info (some tokens)) = false) :
    unpricedSummary settings ctx info (some { tokens with completionTokens := completion }) =
      { unpricedSummary settings ctx info (some tokens) with
        completionTokens := completion
        totalTokens := tokens.promptTokens + completion } := by
  have hsame : infersCacheCreation settings info
      (initialSummary info (some { tokens with completionTokens := completion })) = false := h
  simp only [unpricedSummary, openRouterSummary, openRouterCacheCreation_of_not_infers h,
    openRouterCacheCreation_of_not_infers hsame]
  rfl

def withCached (tokens : Usage) (cached : Int) : Usage :=
  { tokens with promptTokensDetails := { tokens.promptTokensDetails with cachedTokens := cached } }

theorem openRouterSummary_of_direct (h : isOpenRouterClaudeBilling info summary = false) :
    openRouterSummary settings info counts summary = summary := by
  have hinfer : infersCacheCreation settings info summary = false := by
    simp [infersCacheCreation, h]
  simp only [openRouterSummary, openRouterCacheCreation_of_not_infers hinfer, h,
    Bool.false_eq_true, if_false]

theorem openRouterSummary_of_semantic (h : usageSemanticFromUsage info usage ≠ "anthropic") :
    openRouterSummary settings info counts (initialSummary info usage) =
      initialSummary info usage :=
  openRouterSummary_of_direct (by simp [isOpenRouterClaudeBilling, initialSummary, h])

private theorem unpricedSummary_cached (cached : Int)
    (h : usageSemanticFromUsage info (some tokens) ≠ "anthropic") :
    unpricedSummary settings ctx info (some (withCached tokens cached)) =
      { unpricedSummary settings ctx info (some tokens) with cacheTokens := cached } := by
  have hcached : usageSemanticFromUsage info (some (withCached tokens cached)) ≠ "anthropic" := h
  simp only [unpricedSummary, openRouterSummary_of_semantic h,
    openRouterSummary_of_semantic hcached]
  rfl

theorem cachedShare_net (summary : TextQuotaSummary) :
    (cachedShare summary true).priced - (cachedShare summary true).taken =
      summary.cacheTokens * (summary.cacheRatio - 1) := by
  unfold cachedShare
  split
  · next hzero => simp [hzero]
  · simp only [if_true]
    ring

private theorem ratioQuotaDecimal_cached {otherRatios : List ℚ} (hothers : ∀ r ∈ otherRatios, 0 < r)
    (hratio : 0 ≤ summary.modelRatio * summary.groupRatio) (hcache : summary.cacheRatio ≤ 1)
    (hgrow : summary.cacheTokens ≤ cached) :
    ratioQuotaDecimal { summary with cacheTokens := cached } true quotaPerUnit otherRatios ≤
      ratioQuotaDecimal summary true quotaPerUnit otherRatios := by
  have hgrow' : (summary.cacheTokens : ℚ) ≤ cached := by exact_mod_cast hgrow
  have hnet := cachedShare_net summary
  have hnet' : (cachedShare { summary with cacheTokens := cached } true).priced -
      (cachedShare { summary with cacheTokens := cached } true).taken =
        cached * (summary.cacheRatio - 1) := cachedShare_net { summary with cacheTokens := cached }
  have hless : cached * (summary.cacheRatio - 1) ≤ summary.cacheTokens * (summary.cacheRatio - 1) :=
    mul_le_mul_of_nonpos_right hgrow' (by linarith)
  apply foldl_mul_mono hothers
  refine add_le_add_left (add_le_add_left (mul_le_mul_of_nonneg_right ?_ hratio) _) _
  refine add_le_add_left ?_ _
  show (summary.promptTokens : ℚ) -
      (cachedShare { summary with cacheTokens := cached } true).taken -
      (cacheCreationShare summary true).taken - (imageShare summary).taken -
      (audioShare summary quotaPerUnit).taken +
      (cachedShare { summary with cacheTokens := cached } true).priced +
      (imageShare summary).priced + (cacheCreationShare summary true).priced ≤ _
  linarith

end

/--
The quota of a text request in ratio mode, as long as the exact amount is an
`int64`: it is not negative, at least 1 if something is charged, 0 without tokens,
grows with the completion tokens unless cache creation tokens are inferred from
the cost, and falls with the cached tokens.
-/
theorem textQuota_sound (settings : PriceSettings) (ctx : TextContext) (info : TextRelayInfo)
    (usage : Option Usage) (hprices : NonnegPrices settings info.priceData)
    (hmode : info.priceData.usePrice = false) (htokens : NonnegTokens (usageOrEstimate info usage))
    (hfits : roundAway (textQuotaDecimal settings ctx info usage) < 2 ^ 63) :
    let quota := fun usage => (calculateTextQuotaSummary settings ctx info usage).quota
    0 ≤ quota usage ∧
      (totalTokens info usage ≠ 0 →
        info.priceData.modelRatio * info.priceData.groupRatio ≠ 0 → 1 ≤ quota usage) ∧
      (totalTokens info usage = 0 → quota usage = 0) ∧
      (∀ tokens completion, usage = some tokens → tokens.completionTokens ≤ completion →
        infersCacheCreation settings info (initialSummary info usage) = false →
        roundAway (textQuotaDecimal settings ctx info
          (some { tokens with completionTokens := completion })) < 2 ^ 63 →
        quota usage ≤ quota (some { tokens with completionTokens := completion })) ∧
      ∀ tokens cached, usage = some tokens →
        tokens.promptTokensDetails.cachedTokens ≤ cached → cached ≤ tokens.promptTokens →
        usageSemanticFromUsage info usage ≠ "anthropic" →
        isLegacyClaudeDerivedOpenAIUsage info tokens = false → info.priceData.cacheRatio ≤ 1 →
        quota (some (withCached tokens cached)) ≤ quota usage := by
  intro quota
  refine ⟨quota_nonneg hprices hmode htokens hfits, ?_, quota_eq_zero, ?_, ?_⟩
  · intro htotal hratio
    have hcharge : quota usage = _ := quota_eq_charge hprices hmode htokens hfits htotal
    rw [hcharge, decide_eq_true hratio]
    exact one_le_charge _
  · rintro tokens completion rfl hgrow hinfer hfits'
    have htokens' : NonnegTokens
        (usageOrEstimate info (some { tokens with completionTokens := completion })) :=
      { htokens with completion := htokens.completion.trans hgrow }
    have hprompt : 0 ≤ tokens.promptTokens := htokens.prompt
    have hcompletion : 0 ≤ tokens.completionTokens := htokens.completion
    apply quota_le_quota hprices hmode htokens htokens' hfits'
    · show tokens.promptTokens + tokens.completionTokens = 0 ∨ tokens.promptTokens + completion ≠ 0
      omega
    · have hgrow' : (tokens.completionTokens : ℚ) ≤ completion := by exact_mod_cast hgrow
      have hratio := mul_nonneg hprices.modelRatio hprices.groupRatio
      unfold textQuotaDecimal
      rw [unpricedSummary_completion completion hinfer]
      apply foldl_mul_mono hprices.otherRatios
      refine add_le_add_left (add_le_add_left (mul_le_mul_of_nonneg_right ?_ hratio) _) _
      exact add_le_add_right (mul_le_mul_of_nonneg_right hgrow' hprices.completionRatio) _
  · rintro tokens cached rfl hgrow _ hsemantic hlegacy hcache
    have htokens' : NonnegTokens (usageOrEstimate info (some (withCached tokens cached))) :=
      { htokens with cached := htokens.cached.trans hgrow }
    apply quota_le_quota hprices hmode htokens' htokens hfits
    · exact eq_or_ne (totalTokens info (some tokens)) 0
    · have hincluded : includesCached info (some tokens) = true := by
        simp [includesCached, hsemantic, usageOrEstimate, hlegacy]
      have hincluded' : includesCached info (some (withCached tokens cached)) = true := hincluded
      unfold textQuotaDecimal
      rw [hincluded, hincluded', unpricedSummary_cached cached hsemantic]
      apply ratioQuotaDecimal_cached hprices.otherRatios
      · exact mul_nonneg hprices.modelRatio hprices.groupRatio
      · exact hcache
      · exact hgrow

def builtInSettings : PriceSettings where
  quotaPerUnit := 500000
  toolPrices := defaultToolPrices
  defaultModelRatio name := if name = "claude-3-5-sonnet-20241022" then some 1.5 else none

def gptRequest : TextRelayInfo where
  originModelName := "gpt-4o"
  priceData := { modelRatio := 1.25, completionRatio := 4, cacheRatio := 0.5 }

def cachedPrompt : Usage where
  promptTokens := 1000
  completionTokens := 200
  promptTokensDetails := { cachedTokens := 300 }

theorem textQuota_sound_gpt :
    1 ≤ (calculateTextQuotaSummary builtInSettings {} gptRequest (some cachedPrompt)).quota ∧
      (calculateTextQuotaSummary builtInSettings {} gptRequest (some cachedPrompt)).quota ≤
        (calculateTextQuotaSummary builtInSettings {} gptRequest
          (some { cachedPrompt with completionTokens := 400 })).quota ∧
      (calculateTextQuotaSummary builtInSettings {} gptRequest
          (some (withCached cachedPrompt 600))).quota ≤
        (calculateTextQuotaSummary builtInSettings {} gptRequest (some cachedPrompt)).quota := by
  have h := textQuota_sound builtInSettings {} gptRequest (some cachedPrompt)
    ⟨by decide +kernel, by decide +kernel, by decide +kernel, by decide +kernel, by decide +kernel,
      defaultToolPrices_nonneg⟩
    rfl ⟨by decide, by decide, by decide, by decide, by decide, by decide⟩ (by decide +kernel)
  exact ⟨h.2.1 (by decide) (by decide +kernel),
    h.2.2.2.1 cachedPrompt 400 rfl (by decide) (by decide +kernel) (by decide +kernel),
    h.2.2.2.2 cachedPrompt 600 rfl (by decide) (by decide) (by decide +kernel) (by decide +kernel)
      (by decide +kernel)⟩

def dearRequest : TextRelayInfo where
  originModelName := "gpt-4o"
  priceData := { modelRatio := 10, completionRatio := 1 }

def openRouterRequest : TextRelayInfo where
  originModelName := "claude-3-5-sonnet-20241022"
  priceData := { modelRatio := 1.5, completionRatio := 1, cacheRatio := 1, cacheCreationRatio := 4 }
  relayFormat := .claude
  channelType := some channelTypeOpenRouter

def costUsage (completion : Int) : Usage where
  promptTokens := 10
  completionTokens := completion
  cost := 33 / 500000

theorem textQuota_sound_counterexample :
    (calculateTextQuotaSummary builtInSettings {} dearRequest
        (some { promptTokens := 10 ^ 18 })).quota = -8446744073709551616 ∧
      (calculateTextQuotaSummary builtInSettings {} openRouterRequest (some (costUsage 1))).quota =
        35 ∧
      (calculateTextQuotaSummary builtInSettings {} openRouterRequest (some (costUsage 2))).quota =
        32 := by
  refine ⟨?_, ?_, ?_⟩ <;> decide +kernel

end NewApi.Pricing
