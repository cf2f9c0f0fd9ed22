import NewApi.Foundation.GoString
import NewApi.Foundation.Run

/-!
# The attempts of a request

A request is tried on one channel after another.  What an attempt knows of its
channel is kept in the gin context and in `RelayInfo`, which live as long as
the request: `SetupContextForSelectedChannel` in `middleware/distributor.go`,
`InitChannelMeta` in `relay/common/relay_info.go`, the header overrides of
`relay/common/override.go` and `processHeaderOverride` in
`relay/channel/api_request.go`.
-/

namespace NewApi.Relay

open Foundation

universe u

inductive ChannelType where
  | openAI
  | azure
  | vertexAi
  | xunfei
  | gemini
  | ali
  | cloudflare
  | mokaAI
  | coze
  | other (type : Nat)
  deriving DecidableEq

/-- A map of headers, each value as `fmt.Sprintf("%v")` prints it. -/
abbrev HeaderMap := List (String × String)

/-- The configuration of a channel, with the key that is selected for the
attempt.  The param override is `none` if it is empty. -/
structure Channel (π : Type u) where
  type : ChannelType
  key : String := ""
  headerOverride : HeaderMap := []
  paramOverride : Option π := none
  openAIOrganization : Option String := none
  other : String := ""

structure Context (π : Type u) where
  channelType : ChannelType := .other 0
  channelKey : String := ""
  channelParamOverride : Option π := none
  channelHeaderOverride : HeaderMap := []
  channelOrganization : String := ""
  apiVersion : String := ""
  region : String := ""
  plugin : String := ""
  botId : String := ""

structure ChannelMeta (π : Type u) where
  channelType : ChannelType := .other 0
  apiVersion : String := ""
  apiKey : String := ""
  organization : String := ""
  paramOverride : Option π := none
  headersOverride : HeaderMap := []

structure RelayInfo (π : Type u) where
  channelMeta : ChannelMeta π := {}
  retryIndex : Nat := 0
  lastError : Option String := none
  runtimeHeadersOverride : HeaderMap := []
  useRuntimeHeadersOverride : Bool := false

structure Request where
  originModelName : String := ""
  urlPath : String := ""
  apiVersionQuery : String := ""
  headers : HeaderMap := []
  isChannelTest : Bool := false

/-- What the operations of a param override can read and, for the headers,
write. -/
structure OverrideContext where
  upstreamModelName : String
  request : Request
  headerOverride : HeaderMap
  retryIndex : Nat
  lastError : Option String

/-- An attempt: the channel, what the relay handler makes of the request for
it, and the state of the retry loop.  Some handlers send the body as it is. -/
structure Attempt (π : Type u) where
  channel : Channel π
  upstreamModelName : String := ""
  body : String := ""
  appliesParamOverride : Bool := true
  retryIndex : Nat := 0
  lastError : Option String := none

/-- The library functions that are called, and the parts of the gateway that
are left open: the operations of a param override on the body and the headers
(`none` if they fail), and the template that the channel affinity of the
request merges into it. -/
structure Environment (π : Type u) where
  toLower : String → String
  replaceAll : String → String → String → String
  compile : String → Option (String → Bool)
  headerGet : HeaderMap → String → String
  applyParamOverride : String → π → OverrideContext → Option HeaderMap
  affinityTemplate : Option π → Option π

inductive HeaderError where
  | emptyPattern (key : String)
  | invalidPattern (pattern : String)
  | placeholderNotFull (template : String)
  | placeholderNameEmpty (template : String)

def setHeader (headers : HeaderMap) (key value : String) : HeaderMap :=
  headers.filter (fun h => h.1 ≠ key) ++ [(key, value)]

def headerPassthroughAllKey : String := "*"

def headerPassthroughRegexPrefix : String := "re:"

def headerPassthroughRegexPrefixV2 : String := "regex:"

def clientHeaderPlaceholderPrefix : String := "\x7bclient_header:"

def passthroughSkipHeaderNamesLower : List String :=
  ["connection", "keep-alive", "proxy-authenticate", "proxy-authorization", "te", "trailer",
    "transfer-encoding", "upgrade", "cookie", "host", "content-length", "accept-encoding",
    "authorization", "x-api-key", "x-goog-api-key", "sec-websocket-key", "sec-websocket-version",
    "sec-websocket-extensions"]

section

variable {π : Type u} (env : Environment π) (request : Request) (channel : Channel π)
  (c : Context π)

def setOther : Context π :=
  match channel.type with
  | .azure => { c with apiVersion := channel.other }
  | .vertexAi => { c with region := channel.other }
  | .xunfei => { c with apiVersion := channel.other }
  | .gemini => { c with apiVersion := channel.other }
  | .ali => { c with plugin := channel.other }
  | .cloudflare => { c with apiVersion := channel.other }
  | .mokaAI => { c with apiVersion := channel.other }
  | .coze => { c with botId := channel.other }
  | .openAI => c
  | .other _ => c

def setupContextForSelectedChannel : Context π :=
  setOther channel
    { c with
      channelType := channel.type
      channelParamOverride := env.affinityTemplate channel.paramOverride
      channelHeaderOverride := channel.headerOverride
      channelOrganization :=
        match channel.openAIOrganization with
        | some organization => if organization ≠ "" then organization else c.channelOrganization
        | none => c.channelOrganization
      channelKey := channel.key }

def getAPIVersion : String :=
  if request.apiVersionQuery = "" then c.apiVersion else request.apiVersionQuery

section

variable (info : RelayInfo π)

def initChannelMeta : RelayInfo π :=
  { info with
    channelMeta :=
      { channelType := c.channelType
        apiVersion :=
          match c.channelType with
          | .azure => getAPIVersion request c
          | .vertexAi => c.region
          | _ => c.apiVersion
        apiKey := c.channelKey
        organization := c.channelOrganization
        paramOverride := c.channelParamOverride
        headersOverride := c.channelHeaderOverride } }

def normalizeHeaderContextKey (key : String) : String := trimSpace (env.toLower key)

def isHeaderPassthroughRuleKeyForOverride (key : String) : Bool :=
  let key := trimSpace (env.toLower key)
  key = headerPassthroughAllKey || hasPrefix key headerPassthroughRegexPrefix ||
    hasPrefix key headerPassthroughRegexPrefixV2

def isHeaderPassthroughRuleKey (key : String) : Bool :=
  let key := trimSpace key
  key = headerPassthroughAllKey || hasPrefix (env.toLower key) headerPassthroughRegexPrefix ||
    hasPrefix (env.toLower key) headerPassthroughRegexPrefixV2

def sanitizeHeaderOverrideMap (source : HeaderMap) : HeaderMap :=
  source.foldl
    (fun target header =>
      let key := normalizeHeaderContextKey env header.1
      let value := trimSpace header.2
      if key = "" then target
      else if value = "" then
        if isHeaderPassthroughRuleKeyForOverride env key then setHeader target key "" else target
      else setHeader target key value)
    []

def getEffectiveHeaderOverride : HeaderMap :=
  if info.useRuntimeHeadersOverride then sanitizeHeaderOverrideMap env info.runtimeHeadersOverride
  else sanitizeHeaderOverrideMap env info.channelMeta.headersOverride

def buildParamOverrideContext (upstreamModelName : String) (info : RelayInfo π) :
    OverrideContext where
  upstreamModelName := upstreamModelName
  request := request
  headerOverride := sanitizeHeaderOverrideMap env (getEffectiveHeaderOverride env info)
  retryIndex := info.retryIndex
  lastError := info.lastError

def syncRuntimeHeaderOverrideFromContext (headers : HeaderMap) (info : RelayInfo π) : RelayInfo π :=
  { info with
    runtimeHeadersOverride := sanitizeHeaderOverrideMap env headers
    useRuntimeHeadersOverride := true }

/-- The second component is whether the override succeeded. -/
def applyParamOverrideWithRelayInfo (upstreamModelName body : String) (info : RelayInfo π) :
    RelayInfo π × Bool :=
  match info.channelMeta.paramOverride with
  | none => (info, true)
  | some paramOverride =>
    match env.applyParamOverride body paramOverride
      (buildParamOverrideContext env request upstreamModelName info) with
    | none => (info, false)
    | some headers => (syncRuntimeHeaderOverrideFromContext env headers info, true)

def applyHeaderOverridePlaceholders (template apiKey : String) :
    Except HeaderError (Option String) :=
  let trimmed := trimSpace template
  if hasPrefix trimmed clientHeaderPlaceholderPrefix then
    let afterPrefix := trimmed.toList.drop clientHeaderPlaceholderPrefix.length
    if afterPrefix.idxOf '\x7d' + 1 ≠ afterPrefix.length then .error (.placeholderNotFull template)
    else
      let name := trimSpace (String.ofList afterPrefix.dropLast)
      if name = "" then .error (.placeholderNameEmpty template)
      else
        let value := env.headerGet request.headers name
        .ok (if trimSpace value = "" then none else some value)
  else
    let template := env.replaceAll template "\x7bapi_key\x7d" apiKey
    .ok (if trimSpace template = "" then none else some template)

def passthroughRule (key : String) : Except HeaderError (Option (String → Bool)) :=
  let lower := trimSpace (env.toLower key)
  let compile := fun pattern =>
    if trimSpace pattern = "" then .error (.emptyPattern key)
    else
      match env.compile (trimSpace pattern) with
      | none => .error (.invalidPattern pattern)
      | some rule => .ok (some rule)
  if lower = headerPassthroughAllKey then .ok (some fun _ => true)
  else if hasPrefix lower headerPassthroughRegexPrefix then
    compile (String.ofList (lower.toList.drop headerPassthroughRegexPrefix.length))
  else if hasPrefix lower headerPassthroughRegexPrefixV2 then
    compile (String.ofList (lower.toList.drop headerPassthroughRegexPrefixV2.length))
  else .ok none

def shouldSkipPassthroughHeader (name : String) : Bool :=
  trimSpace name = "" || passthroughSkipHeaderNamesLower.contains (env.toLower (trimSpace name))

def passThrough (rules : List (String → Bool)) : HeaderMap :=
  request.headers.foldl
    (fun headers header =>
      let value := trimSpace (env.headerGet request.headers header.1)
      if shouldSkipPassthroughHeader env header.1 then headers
      else if !rules.any (fun rule => rule header.1) then headers
      else if value = "" then headers
      else setHeader headers (env.toLower (trimSpace header.1)) value)
    []

def overrideHeader (apiKey : String) (headers : HeaderMap) (header : String × String) :
    Except HeaderError HeaderMap :=
  let key := trimSpace (env.toLower header.1)
  if isHeaderPassthroughRuleKey env header.1 || key = "" then .ok headers
  else if request.isChannelTest &&
      hasPrefix (trimSpace header.2) clientHeaderPlaceholderPrefix then .ok headers
  else do
    match ← applyHeaderOverridePlaceholders env request header.2 apiKey with
    | none => .ok headers
    | some value => .ok (setHeader headers key value)

def processHeaderOverride : Except HeaderError HeaderMap := do
  let source := getEffectiveHeaderOverride env info
  let rules ←
    if request.isChannelTest then pure []
    else source.mapM fun header => passthroughRule env header.1
  source.foldlM (overrideHeader env request info.channelMeta.apiKey)
    (passThrough env request (rules.filterMap id))

/-! ## The attempts -/

structure State (π : Type u) where
  context : Context π := {}
  info : RelayInfo π := {}

/-- What the upstream of a channel can see of the configuration. -/
structure Observation where
  /-- The headers that are sent, `none` if nothing is sent. -/
  headers : Option (Except HeaderError HeaderMap)
  effectiveHeaderOverride : HeaderMap
  organization : Option String
  apiVersion : Option String

def organizationHeader : Option String :=
  if info.channelMeta.channelType = .openAI ∧ info.channelMeta.organization ≠ "" then
    some info.channelMeta.organization
  else none

def apiVersionUsed : Option String :=
  match info.channelMeta.channelType with
  | .azure => some info.channelMeta.apiVersion
  | .vertexAi => some info.channelMeta.apiVersion
  | .xunfei => some info.channelMeta.apiVersion
  | .cloudflare => some info.channelMeta.apiVersion
  | _ => none

end

def prepare (s : State π) (a : Attempt π) : State π × Bool :=
  let context := setupContextForSelectedChannel env a.channel s.context
  let info := initChannelMeta request context
    { s.info with retryIndex := a.retryIndex, lastError := a.lastError }
  if a.appliesParamOverride then
    let (info, succeeded) :=
      applyParamOverrideWithRelayInfo env request a.upstreamModelName a.body info
    ({ context := context, info := info }, succeeded)
  else ({ context := context, info := info }, true)

def attempt (s : State π) (a : Attempt π) : State π := (prepare env request s a).1

def observe (s : State π) (a : Attempt π) : Observation :=
  let (s, succeeded) := prepare env request s a
  { headers := if succeeded then some (processHeaderOverride env request s.info) else none
    effectiveHeaderOverride := getEffectiveHeaderOverride env s.info
    organization := organizationHeader s.info
    apiVersion := apiVersionUsed s.info }

/-! ## What an attempt takes over from the earlier ones -/

def Overrides (a : Attempt π) : Prop :=
  a.appliesParamOverride = true ∧ env.affinityTemplate a.channel.paramOverride ≠ none

def Channel.organization : String := channel.openAIOrganization.getD ""

def OwnOrganization (history : List (Attempt π)) (a : Attempt π) : Prop :=
  a.channel.type = .openAI →
    a.channel.organization ≠ "" ∨ ∀ b ∈ history, b.channel.organization = ""

private theorem setOther_channelOrganization :
    (setOther channel c).channelOrganization = c.channelOrganization := by
  unfold setOther
  cases channel.type <;> rfl

theorem setup_channelOrganization :
    (setupContextForSelectedChannel env channel c).channelOrganization =
      if channel.organization ≠ "" then channel.organization else c.channelOrganization := by
  unfold setupContextForSelectedChannel
  rw [setOther_channelOrganization]
  unfold Channel.organization
  cases channel.openAIOrganization with
  | none | some => rfl

variable (s : State π) (a : Attempt π)

theorem prepare_channelMeta :
    (prepare env request s a).1.info.channelMeta =
      (initChannelMeta request (setupContextForSelectedChannel env a.channel s.context)
        s.info).channelMeta := by
  unfold prepare
  dsimp only
  split
  · unfold applyParamOverrideWithRelayInfo
    split
    · rfl
    · split <;> rfl
  · rfl

private theorem prepare_context :
    (prepare env request s a).1.context =
      setupContextForSelectedChannel env a.channel s.context := by
  unfold prepare
  dsimp only
  split <;> rfl

theorem prepare_channelType :
    (prepare env request s a).1.info.channelMeta.channelType = a.channel.type := by
  rw [prepare_channelMeta]
  unfold initChannelMeta setupContextForSelectedChannel setOther
  cases a.channel.type <;> rfl

private theorem apiVersionUsed_prepare (s' : State π) (a : Attempt π) :
    apiVersionUsed (prepare env request s a).1.info =
      apiVersionUsed (prepare env request s' a).1.info := by
  unfold apiVersionUsed
  rw [prepare_channelType, prepare_channelType, prepare_channelMeta, prepare_channelMeta]
  unfold initChannelMeta setupContextForSelectedChannel setOther getAPIVersion
  cases a.channel.type <;> rfl

theorem organizationHeader_prepare :
    organizationHeader (prepare env request s a).1.info =
      if a.channel.type = .openAI then
        if a.channel.organization ≠ "" then some a.channel.organization
        else if s.context.channelOrganization ≠ "" then some s.context.channelOrganization
        else none
      else none := by
  have horganization : (prepare env request s a).1.info.channelMeta.organization =
      if a.channel.organization ≠ "" then a.channel.organization
      else s.context.channelOrganization := by
    rw [prepare_channelMeta, ← setup_channelOrganization env a.channel s.context]
    rfl
  unfold organizationHeader
  rw [prepare_channelType, horganization]
  by_cases htype : a.channel.type = .openAI
  · by_cases hown : a.channel.organization = "" <;> simp [htype, hown]
  · simp [htype]

def forget (info : RelayInfo π) : RelayInfo π :=
  { info with channelMeta := { info.channelMeta with organization := "", apiVersion := "" } }

theorem processHeaderOverride_forget (info : RelayInfo π) :
    processHeaderOverride env request (forget info) = processHeaderOverride env request info := rfl

theorem getEffectiveHeaderOverride_forget (info : RelayInfo π) :
    getEffectiveHeaderOverride env (forget info) = getEffectiveHeaderOverride env info := rfl

private theorem applyParamOverride_forget (upstreamModelName body : String) (info : RelayInfo π) :
    applyParamOverrideWithRelayInfo env request upstreamModelName body (forget info) =
      (forget (applyParamOverrideWithRelayInfo env request upstreamModelName body info).1,
        (applyParamOverrideWithRelayInfo env request upstreamModelName body info).2) := by
  unfold applyParamOverrideWithRelayInfo
  have hparam : (forget info).channelMeta.paramOverride = info.channelMeta.paramOverride := rfl
  rw [hparam]
  split
  · rfl
  have hcontext : buildParamOverrideContext env request upstreamModelName (forget info) =
      buildParamOverrideContext env request upstreamModelName info := rfl
  rw [hcontext]
  split <;> rfl

variable {s s' : State π}

section

variable (huse : s.info.useRuntimeHeadersOverride = s'.info.useRuntimeHeadersOverride)
include huse

section

variable (hruntime : s.info.runtimeHeadersOverride = s'.info.runtimeHeadersOverride)
include hruntime

private theorem initChannelMeta_forget :
    forget (initChannelMeta request (setupContextForSelectedChannel env a.channel s.context)
        { s.info with retryIndex := a.retryIndex, lastError := a.lastError }) =
      forget (initChannelMeta request (setupContextForSelectedChannel env a.channel s'.context)
        { s'.info with retryIndex := a.retryIndex, lastError := a.lastError }) := by
  unfold forget initChannelMeta setupContextForSelectedChannel setOther
  dsimp only
  rw [huse, hruntime]
  cases a.channel.type <;> rfl

private theorem prepare_forget :
    forget (prepare env request s a).1.info = forget (prepare env request s' a).1.info ∧
      (prepare env request s a).2 = (prepare env request s' a).2 := by
  have hinit := initChannelMeta_forget env request a huse hruntime
  unfold prepare
  dsimp only
  split
  · have happly := applyParamOverride_forget env request a.upstreamModelName a.body
    have hpair := (happly _).symm.trans ((congrArg _ hinit).trans (happly _))
    obtain ⟨hinfo, hsucceeded⟩ := Prod.mk.inj hpair
    exact ⟨hinfo, hsucceeded⟩
  · exact ⟨hinit, rfl⟩

end

end

theorem Observation.with_organization_eq_iff (o : Observation) (organization : Option String) :
    { o with organization := organization } = o ↔ organization = o.organization :=
  ⟨fun h => congrArg Observation.organization h, fun h => by rw [h]⟩

theorem observe_congr (huse : s.info.useRuntimeHeadersOverride = s'.info.useRuntimeHeadersOverride)
    (hruntime : s.info.runtimeHeadersOverride = s'.info.runtimeHeadersOverride) :
    observe env request s a = { observe env request s' a with
      organization := organizationHeader (prepare env request s a).1.info } := by
  obtain ⟨hinfo, hsucceeded⟩ := prepare_forget env request a huse hruntime
  have hheaders := congrArg (processHeaderOverride env request) hinfo
  have heffective := congrArg (getEffectiveHeaderOverride env) hinfo
  rw [processHeaderOverride_forget, processHeaderOverride_forget] at hheaders
  rw [getEffectiveHeaderOverride_forget, getEffectiveHeaderOverride_forget] at heffective
  unfold observe
  dsimp only
  rw [hsucceeded, hheaders, heffective, apiVersionUsed_prepare env request s s' a]

/-! ## Whole runs -/

def after (history : List (Attempt π)) : State π := run (attempt env request) {} history

private theorem attempt_of_not_overrides {a : Attempt π} (h : ¬ Overrides env a) (s : State π) :
    (attempt env request s a).info.useRuntimeHeadersOverride = s.info.useRuntimeHeadersOverride ∧
      (attempt env request s a).info.runtimeHeadersOverride = s.info.runtimeHeadersOverride := by
  unfold attempt prepare
  dsimp only
  split
  · have hnone : (initChannelMeta request (setupContextForSelectedChannel env a.channel s.context)
        { s.info with retryIndex := a.retryIndex, lastError := a.lastError
          }).channelMeta.paramOverride = none := by
      have hparam : (setupContextForSelectedChannel env a.channel
          s.context).channelParamOverride = env.affinityTemplate a.channel.paramOverride := by
        unfold setupContextForSelectedChannel setOther
        cases a.channel.type <;> rfl
      refine hparam.trans ?_
      by_contra hsome
      exact h ⟨‹_›, hsome⟩
    unfold applyParamOverrideWithRelayInfo
    rw [hnone]
    exact ⟨rfl, rfl⟩
  · exact ⟨rfl, rfl⟩

theorem after_of_not_overrides {history : List (Attempt π)} (h : ∀ b ∈ history, ¬ Overrides env b) :
    (after env request history).info.useRuntimeHeadersOverride = false ∧
      (after env request history).info.runtimeHeadersOverride = [] := by
  unfold after
  induction history using List.reverseRecOn with
  | nil => exact ⟨rfl, rfl⟩
  | append_singleton history b ih =>
    rw [List.forall_mem_append] at h
    obtain ⟨huse, hruntime⟩ := ih h.1
    obtain ⟨huse', hruntime'⟩ := attempt_of_not_overrides env request
      (h.2 b List.mem_cons_self) (run (attempt env request) {} history)
    rw [run_append, run_cons, run_nil]
    exact ⟨huse'.trans huse, hruntime'.trans hruntime⟩

private theorem after_channelOrganization (history : List (Attempt π)) :
    (after env request history).context.channelOrganization = "" ↔
      ∀ b ∈ history, b.channel.organization = "" := by
  unfold after
  induction history using List.reverseRecOn with
  | nil => simp
  | append_singleton history b ih =>
    rw [run_append, run_cons, run_nil, List.forall_mem_append, ← ih]
    unfold attempt
    rw [prepare_context, setup_channelOrganization]
    by_cases hown : b.channel.organization = "" <;> simp [hown]

/-- If no earlier attempt has applied a param override, an attempt shows its
upstream what it would show if it were the first one, if and only if its
organization is its own. -/
theorem attempt_isolated_iff (history : List (Attempt π)) (a : Attempt π)
    (h : ∀ b ∈ history, ¬ Overrides env b) :
    observe env request (after env request history) a = observe env request {} a ↔
      OwnOrganization history a := by
  obtain ⟨huse, hruntime⟩ := after_of_not_overrides env request h
  have hobserve : observe env request (after env request history) a =
      { observe env request {} a with
        organization :=
          organizationHeader (prepare env request (after env request history) a).1.info } :=
    observe_congr env request a huse hruntime
  have hfresh : (observe env request {} a).organization =
      organizationHeader (prepare env request {} a).1.info := rfl
  rw [hobserve, Observation.with_organization_eq_iff, hfresh, organizationHeader_prepare,
    organizationHeader_prepare]
  unfold OwnOrganization
  rw [← after_channelOrganization env request history]
  by_cases htype : a.channel.type = .openAI
  · by_cases hown : a.channel.organization = "" <;> simp [htype, hown]
  · simp [htype]

end

/-! ## A header of another channel -/

/-- Lower-case names and values without placeholders, and a param override that
sets a field of the body. -/
def plainEnvironment : Environment String where
  toLower := id
  replaceAll s _ _ := s
  compile _ := none
  headerGet headers name := (headers.lookup name).getD ""
  applyParamOverride _ _ context := some context.headerOverride
  affinityTemplate := id

def firstChannel : Channel String where
  type := .openAI
  key := "sk-1"
  headerOverride := [("authorization", "Bearer first")]
  openAIOrganization := some "org-first"

def secondChannel : Channel String where
  type := .openAI
  key := "sk-2"
  headerOverride := [("x-region", "eu")]
  openAIOrganization := some "org-second"

theorem attempt_isolated_second :
    observe plainEnvironment {} (after plainEnvironment {} [{ channel := firstChannel }])
        { channel := secondChannel, retryIndex := 1 } =
      observe plainEnvironment {} {} { channel := secondChannel, retryIndex := 1 } :=
  (attempt_isolated_iff plainEnvironment {} [{ channel := firstChannel }]
    { channel := secondChannel, retryIndex := 1 }
    (by simp [Overrides, plainEnvironment, firstChannel])).mpr
    (fun _ => .inl (by decide))

/-- The second channel sends the header of the first, whose param override was
applied, and, having no organization, the organization of the first. -/
theorem header_and_organization_leak :
    (observe plainEnvironment {} (after plainEnvironment {} [{ channel :=
          { firstChannel with paramOverride := some "temperature" } }])
        { channel := { secondChannel with openAIOrganization := none },
          retryIndex := 1 }).effectiveHeaderOverride = [("authorization", "Bearer first")] ∧
      (observe plainEnvironment {}
        (after plainEnvironment {} [{ channel := firstChannel }])
        { channel := { secondChannel with openAIOrganization := none },
          retryIndex := 1 }).organization = some "org-first" ∧
      (observe plainEnvironment {} {}
        { channel := { secondChannel with openAIOrganization := none },
          retryIndex := 1 }).effectiveHeaderOverride = [("x-region", "eu")] ∧
      (observe plainEnvironment {} {}
        { channel := { secondChannel with openAIOrganization := none },
          retryIndex := 1 }).organization = none := by
  decide

end NewApi.Relay
