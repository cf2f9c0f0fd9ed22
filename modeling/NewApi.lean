import NewApi.Archive.TeeWriter
import NewApi.Batch.Updater
import NewApi.Billing.Atomicity
import NewApi.BillingExpr.Cache
import NewApi.Channels.Locks
import NewApi.Claude.Content
import NewApi.Claude.Grammar
import NewApi.Claude.Response
import NewApi.OpenAICompat.ResponsesAnswer
import NewApi.OpenAICompat.ResponsesRequest
import NewApi.OpenAIStream.Gemini
import NewApi.OpenAIStream.Thinking
import NewApi.Override.Legacy
import NewApi.Pricing.Chained
import NewApi.Pricing.GroupRetry
import NewApi.Redemptions.Redeem
import NewApi.Relay.Attempts
import NewApi.Relay.Carryover
import NewApi.Relay.FirstByte
import NewApi.Relay.Routed
import NewApi.Relay.Schedule
import NewApi.RelayClaude.Answer
import NewApi.RelayClaude.Request
import NewApi.RelayGemini.Finish
import NewApi.RelayGemini.Request
import NewApi.RelayGemini.Usage
import NewApi.Requests.BodyStorage
import NewApi.Requests.GeminiLinks
import NewApi.Routing.Disabling
import NewApi.Routing.Paths
import NewApi.Routing.Polling
import NewApi.Routing.Repair
import NewApi.Streams.Wake
import NewApi.Subscriptions.Admission
import NewApi.Subscriptions.GroupUpgrade
import NewApi.Subscriptions.Isolation
import NewApi.Subscriptions.OrderRace
import NewApi.Subscriptions.PreConsumeRace
import NewApi.Tasks.PollingOnce
import NewApi.Tasks.RefundCoverage
import NewApi.Tasks.SunoResponses
import NewApi.Topup.Concurrency
import NewApi.Topup.Epay
import NewApi.Topup.EpayRequest
import NewApi.Topup.OrderLocks
import NewApi.Users.Balance
import NewApi.Users.TwoFA
