import NewApi.Pricing.TextCharge

/-!
# The usage of a Claude channel behind another gateway

`buildOpenAIStyleUsageFromClaudeUsage` in `relay/channel/claude/relay-claude.go` gives clients of
the OpenAI format the usage that a gateway in front of this one is charged by.
-/

namespace NewApi.Pricing

open Foundation Dto

section

variable {summary : TextQuotaSummary} {included : Bool}

end

/-- The counts of an Anthropic usage. -/
structure ClaudeCounts where
  input : Nat
  output : Nat
  cacheRead : Nat := 0
  creation : Nat := 0
  creation5m : Nat := 0
  creation1h : Nat := 0

def ClaudeCounts.usage (c : ClaudeCounts) : Usage where
  promptTokens := c.input
  completionTokens := c.output
  totalTokens := c.input + c.output
  usageSemantic := "anthropic"
  promptTokensDetails := { cachedTokens := c.cacheRead, cachedCreationTokens := c.creation }
  claudeCacheCreation5mTokens := c.creation5m
  claudeCacheCreation1hTokens := c.creation1h

variable {settings : PriceSettings} {ctx : TextContext} {info : TextRelayInfo} {usage : Usage}
  {counts : ClaudeCounts}

/-- What OpenRouter takes from the prompt. -/
def ClaudeCounts.taken (channel : Option Nat) (c : ClaudeCounts) : Int :=
  if channel = some channelTypeOpenRouter then c.cacheRead + c.creation else 0

variable {channel : Option Nat} {modelRatio durationRatio : ℚ}

end NewApi.Pricing
