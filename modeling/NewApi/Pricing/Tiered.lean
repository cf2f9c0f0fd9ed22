import Mathlib.Tactic.Linarith
import Mathlib.Tactic.Ring
import NewApi.Channel.ClaudeUsage

/-!
# Token counts for tiered billing

`BuildTieredTokenParams` and `TryTieredSettle` in `service/tiered_settle.go`.  An
expression prices the variables it uses; `p` and `c` stand for the tokens that no
other variable of the expression prices.
-/

namespace NewApi.Pricing

open Dto Channel

inductive TokenVar where
  | p
  | c
  | len
  | cr
  | cc
  | cc1h
  | img
  | imgO
  | ai
  | ao
  deriving DecidableEq

structure TokenParams where
  p : ℚ
  c : ℚ
  len : ℚ
  cr : ℚ
  cc : ℚ
  cc1h : ℚ
  img : ℚ
  imgO : ℚ
  ai : ℚ
  ao : ℚ
  deriving DecidableEq

def exclude (usedVars : TokenVar → Bool) (total : ℚ) (tokens : List (TokenVar × ℚ)) : ℚ :=
  tokens.foldl (fun rest t => if usedVars t.1 = true then rest - t.2 else rest) total

def cacheCreationTokens (usage : Usage) : Int × Int :=
  if usage.usageSemantic = "anthropic" then
    (usage.claudeCacheCreation5mTokens, usage.claudeCacheCreation1hTokens)
  else (usage.promptTokensDetails.cachedCreationTokens, 0)

def buildTieredTokenParams (usage : Usage) (isClaudeUsageSemantic : Bool)
    (usedVars : TokenVar → Bool) : TokenParams :=
  let p : ℚ := usage.promptTokens
  let c : ℚ := usage.completionTokens
  let cr : ℚ := usage.promptTokensDetails.cachedTokens
  let cc5m : ℚ := (cacheCreationTokens usage).1
  let cc1h : ℚ := (cacheCreationTokens usage).2
  let img : ℚ := usage.promptTokensDetails.imageTokens
  let ai : ℚ := usage.promptTokensDetails.audioTokens
  let imgO : ℚ := usage.completionTokenDetails.imageTokens
  let ao : ℚ := usage.completionTokenDetails.audioTokens
  let inputLen := if isClaudeUsageSemantic = true then p + cr + cc5m + cc1h else p
  let restP :=
    if isClaudeUsageSemantic = true then p
    else
      exclude usedVars p [(.cr, cr), (.cc, cc5m), (.cc1h, cc1h), (.img, img), (.ai, ai)]
  let restC :=
    if isClaudeUsageSemantic = true then c
    else exclude usedVars c [(.imgO, imgO), (.ao, ao)]
  { p := if restP < 0 then 0 else restP
    c := if restC < 0 then 0 else restC
    len := inputLen
    cr := cr
    cc := cc5m
    cc1h := cc1h
    img := img
    imgO := imgO
    ai := ai
    ao := ao }

def usedTokens (usedVars : TokenVar → Bool) (tokens : List (TokenVar × ℚ)) : ℚ :=
  (tokens.map fun t => if usedVars t.1 = true then t.2 else 0).sum

namespace TokenParams

variable (params : TokenParams) (usedVars : TokenVar → Bool)

def usedInput : ℚ :=
  usedTokens usedVars [(.cr, params.cr), (.cc, params.cc), (.cc1h, params.cc1h),
    (.img, params.img), (.ai, params.ai)]

def usedOutput : ℚ := usedTokens usedVars [(.imgO, params.imgO), (.ao, params.ao)]

end TokenParams

/-- The sub-categories that are priced separately are part of the totals. -/
structure SubcategoriesFit (usage : Usage) (usedVars : TokenVar → Bool) : Prop where
  input : usedTokens usedVars
      [(.cr, usage.promptTokensDetails.cachedTokens), (.cc, (cacheCreationTokens usage).1),
        (.cc1h, (cacheCreationTokens usage).2), (.img, usage.promptTokensDetails.imageTokens),
        (.ai, usage.promptTokensDetails.audioTokens)] ≤ usage.promptTokens
  output : usedTokens usedVars
      [(.imgO, usage.completionTokenDetails.imageTokens),
        (.ao, usage.completionTokenDetails.audioTokens)] ≤ usage.completionTokens

structure CountsTotals (params : TokenParams) (usedVars : TokenVar → Bool) (usage : Usage) :
    Prop where
  input : params.p + params.usedInput usedVars = usage.promptTokens
  output : params.c + params.usedOutput usedVars = usage.completionTokens
  len : params.len = usage.promptTokens

/-- The input tokens of a Claude usage, whose cache creation tokens may be
reported as an aggregate, as a split, or as both. -/
def inputTotal (claude : ClaudeUsage) : Int :=
  claude.inputTokens + claude.cacheReadInputTokens +
    max claude.cacheCreationInputTokens
      (getCacheCreation5mTokens claude + getCacheCreation1hTokens claude)

structure CountsInput (params : TokenParams) (claude : ClaudeUsage) : Prop where
  input : params.p + params.cr + params.cc + params.cc1h = inputTotal claude
  len : params.len = inputTotal claude

structure SplitReported (claude : ClaudeUsage) : Prop where
  aggregate : claude.cacheCreationInputTokens ≤
    getCacheCreation5mTokens claude + getCacheCreation1hTokens claude
  input : 0 ≤ claude.inputTokens

section

variable (usedVars : TokenVar → Bool)

private theorem exclude_add_usedTokens (total : ℚ) (tokens : List (TokenVar × ℚ)) :
    exclude usedVars total tokens + usedTokens usedVars tokens = total := by
  induction tokens generalizing total with
  | nil => simp [exclude, usedTokens]
  | cons t tokens ih =>
    have hrest := ih (if usedVars t.1 = true then total - t.2 else total)
    unfold exclude usedTokens at *
    rw [List.foldl_cons, List.map_cons, List.sum_cons, add_left_comm, hrest]
    split <;> ring

private theorem clamp_eq_self {x : ℚ} (h : 0 ≤ x) : (if x < 0 then 0 else x) = x :=
  if_neg (not_lt.mpr h)

theorem clamp_exclude_add {total : ℚ} {tokens : List (TokenVar × ℚ)}
    (h : usedTokens usedVars tokens ≤ total) :
    (if exclude usedVars total tokens < 0 then 0 else exclude usedVars total tokens) +
      usedTokens usedVars tokens = total := by
  have hsum := exclude_add_usedTokens usedVars total tokens
  rw [clamp_eq_self (by linarith), hsum]

variable {usage : Usage}

private theorem countsTotals_of_fit (h : SubcategoriesFit usage usedVars) :
    CountsTotals (buildTieredTokenParams usage false usedVars) usedVars usage where
  input := clamp_exclude_add usedVars h.input
  output := clamp_exclude_add usedVars h.output
  len := rfl

private theorem cacheCreationTokens_of_marked (h : Marked usage) :
    cacheCreationTokens usage =
      (usage.claudeCacheCreation5mTokens, usage.claudeCacheCreation1hTokens) := by
  unfold cacheCreationTokens
  split
  · rfl
  next hother =>
  obtain hmark | ⟨hcreation, h5m, h1h⟩ := h
  · exact absurd hmark hother
  · rw [hcreation, h5m, h1h]

theorem countsInput_iff {claude : ClaudeUsage} (hmarked : Marked usage)
    (hcarries : Carries usage claude) :
    CountsInput (buildTieredTokenParams usage true usedVars) claude ↔ SplitReported claude := by
  have hsplit : cacheCreationTokens usage =
      (getCacheCreation5mTokens claude, getCacheCreation1hTokens claude) := by
    rw [cacheCreationTokens_of_marked hmarked, hcarries.split5m, hcarries.split1h]
  constructor
  · rintro ⟨hinput, hlen⟩
    simp only [buildTieredTokenParams, inputTotal, if_true, hsplit, hcarries.input,
      hcarries.cacheRead] at hinput hlen
    norm_cast at hinput hlen
    constructor
    · omega
    · split at hinput <;> omega
  · rintro ⟨haggregate, hpositive⟩
    have hclamp : ¬ (claude.inputTokens : ℚ) < 0 := by
      rw [not_lt]
      exact_mod_cast hpositive
    have hmax := max_eq_right haggregate
    constructor
    · simp only [buildTieredTokenParams, inputTotal, if_true, hsplit, hmax, hcarries.input,
        hcarries.cacheRead, if_neg hclamp]
      push_cast
      ring
    · simp only [buildTieredTokenParams, inputTotal, if_true, hsplit, hmax, hcarries.input,
        hcarries.cacheRead]
      push_cast
      ring

/--
Of a usage with totals every token is counted once.  Of a Claude usage, streamed
or not, every input token is counted exactly if the cache creation tokens are
reported by their split: an aggregate beyond the split is not looked at.
-/
theorem tieredTokens_countedOnce_iff (usage : Usage) (hfit : SubcategoriesFit usage usedVars)
    (responseId : String) (created : Int) (model : String) (responses : List ClaudeResponse)
    (response : ClaudeResponse) :
    CountsTotals (buildTieredTokenParams usage false usedVars) usedVars usage ∧
      (CountsInput
          (buildTieredTokenParams
            (streamInfo { responseId, created, model } responses).usage true usedVars)
          (reportedUsage responses) ↔ SplitReported (reportedUsage responses)) ∧
      (CountsInput
          (buildTieredTokenParams
            (handleClaudeResponseData response { responseId, created, model }).usage true usedVars)
          (response.usage.getD {}) ↔ SplitReported (response.usage.getD {})) := by
  have hempty : Marked {} := .inr ⟨rfl, rfl, rfl⟩
  refine ⟨countsTotals_of_fit usedVars hfit, ?_, ?_⟩
  · exact countsInput_iff usedVars (marked_stream hempty responses) (carries_stream rfl responses)
  · exact countsInput_iff usedVars (marked_handle hempty response) (carries_handle rfl response)

end

def mixedUsage : Usage where
  promptTokens := 1000
  completionTokens := 500
  promptTokensDetails := { cachedTokens := 200, imageTokens := 100 }
  completionTokenDetails := { audioTokens := 100 }

def cacheAndAudio : TokenVar → Bool
  | .p | .c | .cr | .ao => true
  | _ => false

def splitAnswer : ClaudeUsage where
  inputTokens := 10
  cacheCreationInputTokens := 100
  cacheReadInputTokens := 5
  outputTokens := 7
  cacheCreation := some ⟨60, 40⟩

def aggregateAnswer : ClaudeUsage := { splitAnswer with cacheCreation := none }

def startOf (claude : ClaudeUsage) : ClaudeResponse :=
  { type := .messageStart, message := some ⟨"msg_1", "claude", some claude⟩ }

theorem tieredTokens_countedOnce_mixed :
    CountsTotals (buildTieredTokenParams mixedUsage false cacheAndAudio) cacheAndAudio mixedUsage ∧
      CountsInput
        (buildTieredTokenParams
          (streamInfo ⟨"", 0, "claude", "", {}, false⟩
            [startOf splitAnswer,
              { type := .messageDelta, usage := some { outputTokens := 9 } }]).usage
          true cacheAndAudio)
        { splitAnswer with outputTokens := 9 } ∧
      CountsInput
        (buildTieredTokenParams
          (handleClaudeResponseData { type := .other, usage := some splitAnswer }
            ⟨"", 0, "claude", "", {}, false⟩).usage true cacheAndAudio)
        splitAnswer := by
  have h := tieredTokens_countedOnce_iff cacheAndAudio mixedUsage
    ⟨by decide +kernel, by decide +kernel⟩ "" 0 "claude"
    [startOf splitAnswer, { type := .messageDelta, usage := some { outputTokens := 9 } }]
    { type := .other, usage := some splitAnswer }
  exact ⟨h.1, h.2.1.mpr ⟨by decide, by decide⟩, h.2.2.mpr ⟨by decide, by decide⟩⟩

theorem tieredTokens_countedOnce_counterexample :
    (streamInfo ⟨"", 0, "claude", "", {}, false⟩ [startOf aggregateAnswer]).usage =
        { promptTokens := 10
          completionTokens := 7
          usageSemantic := "anthropic"
          promptTokensDetails := { cachedTokens := 5, cachedCreationTokens := 100 } } ∧
      buildTieredTokenParams
          (streamInfo ⟨"", 0, "claude", "", {}, false⟩ [startOf aggregateAnswer]).usage true
          cacheAndAudio =
        ⟨10, 7, 15, 5, 0, 0, 0, 0, 0, 0⟩ ∧
      inputTotal (reportedUsage [startOf aggregateAnswer]) = 115 ∧
      (handleClaudeResponseData { type := .other, usage := some aggregateAnswer }
          ⟨"", 0, "claude", "", {}, false⟩).usage =
        { promptTokens := 10
          completionTokens := 7
          totalTokens := 17
          usageSemantic := "anthropic"
          promptTokensDetails := { cachedTokens := 5, cachedCreationTokens := 100 } } ∧
      buildTieredTokenParams
          (handleClaudeResponseData { type := .other, usage := some aggregateAnswer }
            ⟨"", 0, "claude", "", {}, false⟩).usage true cacheAndAudio =
        ⟨10, 7, 15, 5, 0, 0, 0, 0, 0, 0⟩ ∧
      inputTotal aggregateAnswer = 115 := by
  refine ⟨rfl, ?_, rfl, rfl, ?_, rfl⟩ <;> decide +kernel

end NewApi.Pricing
