import NewApi.Dto.ChatStream
import NewApi.Foundation.Run

/-!
# The usage of a Claude channel

`FormatClaudeResponseInfo` and the usage part of `HandleClaudeResponseData` in
`relay/channel/claude/relay-claude.go`: how the token counts of the upstream
reach the usage that is billed.
-/

namespace NewApi.Channel

open Foundation Dto

inductive ClaudeResponseType where
  | messageStart
  | contentBlockStart
  | contentBlockDelta
  | messageDelta
  | other

structure ClaudeMessageHead where
  id : String
  model : String
  usage : Option ClaudeUsage

structure ClaudeDelta where
  text : Option String := none
  thinking : Option String := none

structure ClaudeResponse where
  type : ClaudeResponseType
  message : Option ClaudeMessageHead := none
  delta : Option ClaudeDelta := none
  usage : Option ClaudeUsage := none

structure ClaudeResponseInfo where
  responseId : String
  created : Int
  model : String
  responseText : String := ""
  usage : Usage := {}
  done : Bool := false

structure StreamHead where
  id : String
  created : Int
  model : String

def getCacheCreation5mTokens (usage : ClaudeUsage) : Int :=
  (usage.cacheCreation.map ClaudeCacheCreationUsage.ephemeral5mInputTokens).getD 0

def getCacheCreation1hTokens (usage : ClaudeUsage) : Int :=
  (usage.cacheCreation.map ClaudeCacheCreationUsage.ephemeral1hInputTokens).getD 0

section

variable (claude : ClaudeUsage)

def startUsage (usage : Usage) : Usage :=
  { usage with
    promptTokens := claude.inputTokens
    usageSemantic := "anthropic"
    promptTokensDetails :=
      { usage.promptTokensDetails with
        cachedTokens := claude.cacheReadInputTokens
        cachedCreationTokens := claude.cacheCreationInputTokens }
    claudeCacheCreation5mTokens := getCacheCreation5mTokens claude
    claudeCacheCreation1hTokens := getCacheCreation1hTokens claude
    completionTokens := claude.outputTokens }

def positiveOr (new old : Int) : Int := if 0 < new then new else old

def deltaUsage (usage : Usage) : Usage :=
  let promptTokens := positiveOr claude.inputTokens usage.promptTokens
  let completionTokens := positiveOr claude.outputTokens usage.completionTokens
  { usage with
    promptTokens := promptTokens
    usageSemantic := "anthropic"
    promptTokensDetails :=
      { usage.promptTokensDetails with
        cachedTokens :=
          positiveOr claude.cacheReadInputTokens usage.promptTokensDetails.cachedTokens
        cachedCreationTokens :=
          positiveOr claude.cacheCreationInputTokens
            usage.promptTokensDetails.cachedCreationTokens }
    claudeCacheCreation5mTokens :=
      positiveOr (getCacheCreation5mTokens claude) usage.claudeCacheCreation5mTokens
    claudeCacheCreation1hTokens :=
      positiveOr (getCacheCreation1hTokens claude) usage.claudeCacheCreation1hTokens
    completionTokens := completionTokens
    totalTokens := promptTokens + completionTokens }

def messageStart (message : ClaudeMessageHead) (info : ClaudeResponseInfo) : ClaudeResponseInfo :=
  { info with
    responseId := message.id
    model := message.model
    usage := (message.usage.map fun claude => startUsage claude info.usage).getD info.usage }

def contentBlockDelta (delta : ClaudeDelta) (info : ClaudeResponseInfo) : ClaudeResponseInfo :=
  { info with responseText := info.responseText ++ delta.text.getD "" ++ delta.thinking.getD "" }

section

variable (response : ClaudeResponse) (info : ClaudeResponseInfo)

/-- The information after a response; `none` for a type that is not handled. -/
def formattedInfo : Option ClaudeResponseInfo :=
  match response.type with
  | .messageStart =>
    some ((response.message.map fun message => messageStart message info).getD info)
  | .contentBlockDelta =>
    some ((response.delta.map fun delta => contentBlockDelta delta info).getD info)
  | .messageDelta =>
    some { info with
      usage := (response.usage.map fun claude => deltaUsage claude info.usage).getD info.usage
      done := true }
  | .contentBlockStart => some info
  | .other => none

def formatClaudeResponseInfo (oaiResponse : Option StreamHead) (info : ClaudeResponseInfo) :
    Bool × Option StreamHead × ClaudeResponseInfo :=
  match formattedInfo response info with
  | none => (false, oaiResponse, info)
  | some next => (true, oaiResponse.map fun _ => ⟨next.responseId, next.created, next.model⟩, next)

def handleClaudeResponseData : ClaudeResponseInfo :=
  match response.usage with
  | none => info
  | some claude =>
    { info with
      usage :=
        { startUsage claude info.usage with
          totalTokens := claude.inputTokens + claude.outputTokens } }

def streamInfo (responses : List ClaudeResponse) : ClaudeResponseInfo :=
  run (fun info response => (formatClaudeResponseInfo response none info).2.2) info responses

def supersede (new old : ClaudeUsage) : ClaudeUsage where
  inputTokens := positiveOr new.inputTokens old.inputTokens
  cacheCreationInputTokens := positiveOr new.cacheCreationInputTokens old.cacheCreationInputTokens
  cacheReadInputTokens := positiveOr new.cacheReadInputTokens old.cacheReadInputTokens
  outputTokens := positiveOr new.outputTokens old.outputTokens
  cacheCreation := some
    ⟨positiveOr (getCacheCreation5mTokens new) (getCacheCreation5mTokens old),
      positiveOr (getCacheCreation1hTokens new) (getCacheCreation1hTokens old)⟩

def latestUsage : ClaudeUsage :=
  match response.type with
  | .messageStart => (response.message.bind ClaudeMessageHead.usage).getD claude
  | .messageDelta => (response.usage.map fun new => supersede new claude).getD claude
  | _ => claude

end

def reportedUsage (responses : List ClaudeResponse) : ClaudeUsage := run latestUsage {} responses

structure Carries (usage : Usage) (claude : ClaudeUsage) : Prop where
  input : usage.promptTokens = claude.inputTokens
  cacheRead : usage.promptTokensDetails.cachedTokens = claude.cacheReadInputTokens
  cacheCreation : usage.promptTokensDetails.cachedCreationTokens = claude.cacheCreationInputTokens
  split5m : usage.claudeCacheCreation5mTokens = getCacheCreation5mTokens claude
  split1h : usage.claudeCacheCreation1hTokens = getCacheCreation1hTokens claude
  output : usage.completionTokens = claude.outputTokens

end

theorem Carries.delta {usage : Usage} {old : ClaudeUsage} (h : Carries usage old)
    (new : ClaudeUsage) : Carries (deltaUsage new usage) (supersede new old) where
  input := congrArg (positiveOr _) h.input
  cacheRead := congrArg (positiveOr _) h.cacheRead
  cacheCreation := congrArg (positiveOr _) h.cacheCreation
  split5m := congrArg (positiveOr _) h.split5m
  split1h := congrArg (positiveOr _) h.split1h
  output := congrArg (positiveOr _) h.output

variable {info : ClaudeResponseInfo}

theorem Carries.format {claude : ClaudeUsage} (h : Carries info.usage claude)
    (response : ClaudeResponse) :
    Carries (formatClaudeResponseInfo response none info).2.2.usage
      (latestUsage claude response) := by
  obtain ⟨type, message, delta, usage⟩ := response
  cases type with
  | messageStart =>
    rcases message with - | ⟨id, model, - | new⟩
    · exact h
    · exact h
    · exact ⟨rfl, rfl, rfl, rfl, rfl, rfl⟩
  | messageDelta =>
    cases usage with
    | none => exact h
    | some new => exact h.delta new
  | contentBlockDelta => cases delta <;> exact h
  | contentBlockStart | other => exact h

theorem carries_stream (hinfo : info.usage = {}) (responses : List ClaudeResponse) :
    Carries (streamInfo info responses).usage (reportedUsage responses) := by
  refine run_simulates (R := fun (info : ClaudeResponseInfo) claude => Carries info.usage claude)
    (fun _ _ response _ h => h.format response) ?_
  rw [hinfo]
  exact ⟨rfl, rfl, rfl, rfl, rfl, rfl⟩

theorem carries_handle (hinfo : info.usage = {}) (response : ClaudeResponse) :
    Carries (handleClaudeResponseData response info).usage (response.usage.getD {}) := by
  unfold handleClaudeResponseData
  cases response.usage with
  | none =>
    rw [hinfo]
    exact ⟨rfl, rfl, rfl, rfl, rfl, rfl⟩
  | some => exact ⟨rfl, rfl, rfl, rfl, rfl, rfl⟩

def Marked (usage : Usage) : Prop :=
  usage.usageSemantic = "anthropic" ∨
    usage.promptTokensDetails.cachedCreationTokens = 0 ∧
      usage.claudeCacheCreation5mTokens = 0 ∧ usage.claudeCacheCreation1hTokens = 0

private theorem marked_format (info : ClaudeResponseInfo) (response : ClaudeResponse)
    (h : Marked info.usage) : Marked (formatClaudeResponseInfo response none info).2.2.usage := by
  obtain ⟨type, message, delta, usage⟩ := response
  cases type with
  | messageStart =>
    rcases message with - | ⟨id, model, - | claude⟩
    · exact h
    · exact h
    · exact .inl rfl
  | messageDelta =>
    cases usage with
    | none => exact h
    | some => exact .inl rfl
  | contentBlockDelta => cases delta <;> exact h
  | contentBlockStart | other => exact h

theorem marked_stream (h : Marked info.usage) (responses : List ClaudeResponse) :
    Marked (streamInfo info responses).usage :=
  @run_invariant _ _ _ _ (fun info : ClaudeResponseInfo => Marked info.usage)
    marked_format h responses

theorem marked_handle (h : Marked info.usage) (response : ClaudeResponse) :
    Marked (handleClaudeResponseData response info).usage := by
  unfold handleClaudeResponseData
  cases response.usage with
  | none => exact h
  | some => exact .inl rfl

end NewApi.Channel
