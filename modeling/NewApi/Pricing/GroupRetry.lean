import NewApi.Pricing.TextSettle
import NewApi.Relay.Retry
import NewApi.Tasks.Repricing

/-!
# The group ratio after retries

A request of the group `auto` is priced in the group of its first channel.  `getChannel` in
`controller/relay.go` looks the ratio up again for every further channel, but a snapshot of tiered
billing keeps the one it was made with.
-/

namespace NewApi.Pricing

open Foundation Dto
open Remix (GroupSettings handleGroupRatio)
open Retry (Attempt)

section

variable (groups : GroupSettings) (userGroup : String)

def ratioIn (autoGroup : String) : ℚ :=
  (handleGroupRatio groups (some autoGroup) ⟨userGroup, "auto"⟩).2.groupRatio

structure PricedRelay where
  autoGroup : String
  info : TextBillingInfo

def PricedRelay.refresh (s : PricedRelay) (autoGroup : String) : PricedRelay where
  autoGroup := autoGroup
  info := { s.info with
    priceData := { s.info.priceData with groupRatio := ratioIn groups userGroup autoGroup } }

/-- The first attempt returns before the ratio is looked up; a selection sets the group of the
context, a failed one leaves it. -/
def PricedRelay.getChannel (s : PricedRelay) : Attempt → PricedRelay
  | .given => s
  | .selected selection => s.refresh groups userGroup selection.group
  | .notFound => s.refresh groups userGroup s.autoGroup

end

variable {groups : GroupSettings} {userGroup : String}

section

variable (settings : PriceSettings) (groups : GroupSettings) (ctx : TextContext)
  (userGroup : String) (tiered : Option TieredPricing) (info : TextBillingInfo)
  (first : String) (attempts : List Attempt) (usage : Option Usage)

end

end NewApi.Pricing
