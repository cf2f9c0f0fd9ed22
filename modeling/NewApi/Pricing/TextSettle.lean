import NewApi.Pricing.TextCharge
import NewApi.Pricing.Tiered

/-!
# Settlement of a text request

`PostTextConsumeQuota` in `service/text_quota.go`.  The summary of a request
without tokens has quota 0, but a tiered result replaces the quota afterwards;
the counters of the user and of the channel are left alone if there are no
tokens, the settlement is not.
-/

namespace NewApi.Pricing

open Foundation Dto

/-- `quotaBeforeGroup` runs the frozen expression and converts its cost, `usedVars` are the
variables it names. -/
structure BillingSnapshot where
  billingMode : String
  groupRatio : ℚ
  estimatedQuotaAfterGroup : Int
  usedVars : TokenVar → Bool
  quotaBeforeGroup : TokenParams → Except String ℚ

structure TextBillingInfo extends TextRelayInfo where
  userId : Int
  channelId : Int
  finalPreConsumedQuota : Int
  tieredBillingSnapshot : Option BillingSnapshot := none

section

variable (settings : PriceSettings) (ctx : TextContext) (info : TextBillingInfo)
  (usage : Option Usage) (counters : UsageCounters)

/-- What a failed expression is replaced by. -/
def BillingSnapshot.held (snap : BillingSnapshot) : Int :=
  if info.finalPreConsumedQuota ≤ 0 then snap.estimatedQuotaAfterGroup
  else info.finalPreConsumedQuota

end

section

variable {settings : PriceSettings} {ctx : TextContext} {info : TextBillingInfo}
  {usage : Option Usage} {counters : UsageCounters}

end

end NewApi.Pricing
