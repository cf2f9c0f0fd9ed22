import NewApi.Foundation.Stages
import NewApi.Routing.KeyStatus

/-!
# The keys of a channel take turns

`GetNextEnabledKey` of `model/channel.go` for a channel of the memory cache.  In
polling mode the enabled keys form a queue which survives a rebuild of the cache,
because the rebuild takes over the polling index.
-/

namespace NewApi.Routing

open Foundation List
open Channels (JsonArrays getKeys)

inductive ErrorCode where
  | channelNoAvailableKey
  | getChannelFailed

structure KeyError where
  message : String
  code : ErrorCode
  skipRetry : Bool := false

def ChannelInfo.getStatus (info : ChannelInfo) (idx : Nat) : Int :=
  (info.multiKeyStatusList idx).getD channelStatusEnabled

def ChannelInfo.isEnabled (info : ChannelInfo) (idx : Nat) : Bool :=
  decide (info.getStatus idx = channelStatusEnabled)

def cacheGetChannelInfo (cache : Cache) (id : Nat) : Except String ChannelInfo :=
  match cache.channelsIDM id with
  | none => .error s!"渠道# {id}，已不存在"
  | some channel => .ok channel.channelInfo

def pollingStart (index : Int) (n : Nat) : Nat :=
  if index < 0 ∨ index ≥ n then 0 else index.toNat

section

variable (json : JsonArrays)

def Channel.enabledIdx (channel : Channel) : List Nat :=
  (List.range (getKeys json channel.key).length).filter channel.channelInfo.isEnabled

/--
The function with its receiver, which it changes; `cachedInfo` is what
`CacheGetChannelInfo` returns and `random` is the number drawn in random mode.
-/
def getNextEnabledKey (cachedInfo : Except String ChannelInfo) (random : Nat)
    (channel : Channel) : Except KeyError (String × Nat) × Channel :=
  if channel.channelInfo.isMultiKey = false then (.ok (channel.key, 0), channel)
  else
    let keys := getKeys json channel.key
    if keys.length = 0 then (.error ⟨"no keys available", .channelNoAvailableKey, false⟩, channel)
    else
      match channel.enabledIdx json with
      | [] => (.error ⟨"no enabled keys", .channelNoAvailableKey, false⟩, channel)
      | first :: others =>
        match channel.channelInfo.multiKeyMode with
        | .random =>
          let selectedIdx := (first :: others).getD (random % (others.length + 1)) 0
          (.ok (keys.getD selectedIdx "", selectedIdx), channel)
        | .polling =>
          match cachedInfo with
          | .error message => (.error ⟨message, .getChannelFailed, true⟩, channel)
          | .ok info =>
            let start := pollingStart info.multiKeyPollingIndex keys.length
            match scan channel.channelInfo.isEnabled keys.length start with
            | some idx =>
              (.ok (keys.getD idx "", idx),
                { channel with
                  channelInfo :=
                    { channel.channelInfo with
                      multiKeyPollingIndex := ((idx + 1) % keys.length : Nat) } })
            | none => (.ok (keys.getD first "", first), channel)
        | .unknown => (.ok (keys.getD first "", first), channel)

def Cache.nextKey (id random : Nat) (cache : Cache) :
    Option (Except KeyError (String × Nat)) × Cache :=
  match cache.channelsIDM id with
  | none => (none, cache)
  | some channel =>
    let result := getNextEnabledKey json (cacheGetChannelInfo cache id) random channel
    (some result.1, cache.put result.2)

inductive PollEvent where
  | call (random : Nat)
  /-- A rebuild of the cache from what it has read. -/
  | rebuild (channels : List Channel) (abilities : List Ability)

def PollEvent.isCall : PollEvent → Bool
  | .call _ => true
  | .rebuild _ _ => false

def pollStep (sorting : Sorting) (id : Nat) :
    PollEvent → Emitter Cache (Except KeyError (String × Nat))
  | .call random => fun cache =>
    ((cache.nextKey json id random).1.toList, (cache.nextKey json id random).2)
  | .rebuild channels abilities => fun cache =>
    ([], (initChannelCache sorting channels abilities cache).getD cache)

end

structure SamePolling (channel other : Channel) : Prop where
  key : other.key = channel.key
  isMultiKey : other.channelInfo.isMultiKey = channel.channelInfo.isMultiKey
  multiKeyMode : other.channelInfo.multiKeyMode = channel.channelInfo.multiKeyMode
  multiKeyStatusList : other.channelInfo.multiKeyStatusList = channel.channelInfo.multiKeyStatusList

theorem SamePolling.isEnabled {channel other : Channel} (h : SamePolling channel other) :
    other.channelInfo.isEnabled = channel.channelInfo.isEnabled := by
  funext idx
  rw [ChannelInfo.isEnabled, ChannelInfo.getStatus, h.multiKeyStatusList]
  rfl

def Channel.queue (json : JsonArrays) (channel : Channel) (index : Int) : List Nat :=
  turns channel.channelInfo.isEnabled (getKeys json channel.key).length
    (pollingStart index (getKeys json channel.key).length)

theorem queue_perm (json : JsonArrays) (channel : Channel) (index : Int) :
    (channel.queue json index).Perm (channel.enabledIdx json) := turns_perm _ _ _

variable {json : JsonArrays}

section

variable {channel : Channel} {info : ChannelInfo}

theorem SamePolling.queue {other : Channel} (h : SamePolling channel other) (index : Int) :
    other.queue json index = channel.queue json index := by
  unfold Channel.queue
  rw [h.isEnabled, h.key]

private theorem pollingStart_of_lt {i n : Nat} (h : i < n) : pollingStart (i : Int) n = i := by
  unfold pollingStart
  rw [if_neg (by omega)]
  rfl

theorem getNextEnabledKey_of_queue (hmulti : channel.channelInfo.isMultiKey = true)
    (hmode : channel.channelInfo.multiKeyMode = .polling) {idx : Nat} {rest : List Nat}
    (hqueue : channel.queue json info.multiKeyPollingIndex = idx :: rest) (random : Nat) :
    ∃ index, getNextEnabledKey json (.ok info) random channel =
        (.ok ((getKeys json channel.key).getD idx "", idx),
          { channel with
            channelInfo := { channel.channelInfo with multiKeyPollingIndex := index } }) ∧
      channel.queue json index = rest ++ [idx] := by
  have hperm := queue_perm json channel info.multiKeyPollingIndex
  rw [hqueue] at hperm
  have henabled : idx ∈ channel.enabledIdx json := hperm.subset mem_cons_self
  have hlt : idx < (getKeys json channel.key).length := mem_range.mp (mem_filter.mp henabled).1
  have hscan := scan_eq_head? channel.channelInfo.isEnabled (getKeys json channel.key).length
    (pollingStart info.multiKeyPollingIndex (getKeys json channel.key).length)
  rw [Channel.queue] at hqueue
  rw [hqueue, head?_cons] at hscan
  obtain ⟨rest', hturns, hnext⟩ := turns_next hscan
  obtain ⟨-, rfl⟩ := List.cons.inj (hqueue.symm.trans hturns)
  refine ⟨((idx + 1) % (getKeys json channel.key).length : Nat), ?_, ?_⟩
  · obtain ⟨first, others, hfirst⟩ := exists_cons_of_ne_nil (ne_nil_of_mem henabled)
    unfold getNextEnabledKey
    rw [hmulti, if_neg (by decide), if_neg (by omega), hfirst, hmode]
    dsimp only
    rw [hscan]
  · rw [Channel.queue, pollingStart_of_lt (Nat.mod_lt _ (by omega))]
    exact hnext

end

def Waits (json : JsonArrays) (id : Nat) (channel : Channel) (cache : Cache)
    (queue : List Nat) : Prop :=
  ∃ cached, cache.channelsIDM id = some cached ∧ SamePolling channel cached ∧
    channel.queue json cached.channelInfo.multiKeyPollingIndex = queue

section Steps

variable {json : JsonArrays} {sorting : Sorting} {id : Nat} {channel : Channel} {cache : Cache}
  {queue : List Nat} (hmulti : channel.channelInfo.isMultiKey = true)
  (hmode : channel.channelInfo.multiKeyMode = .polling)

include hmulti hmode

theorem Waits.call {idx : Nat} (h : Waits json id channel cache (idx :: queue)) (random : Nat) :
    (pollStep json sorting id (.call random) cache).1 =
        [.ok ((getKeys json channel.key).getD idx "", idx)] ∧
      Waits json id channel (pollStep json sorting id (.call random) cache).2 (queue ++ [idx]) := by
  obtain ⟨cached, hcached, hsame, hqueue⟩ := h
  rw [← hsame.queue] at hqueue
  obtain ⟨index, hcall, hnext⟩ := getNextEnabledKey_of_queue (hsame.isMultiKey.trans hmulti)
    (hsame.multiKeyMode.trans hmode) hqueue random
  have hstep : cache.nextKey json id random =
      (some (.ok ((getKeys json channel.key).getD idx "", idx)),
        cache.put { cached with
          channelInfo := { cached.channelInfo with multiKeyPollingIndex := index } }) := by
    unfold Cache.nextKey cacheGetChannelInfo
    rw [hcached]
    dsimp only
    rw [hcall, hsame.key]
  unfold pollStep
  dsimp only
  rw [hstep]
  refine ⟨rfl, _, if_pos (cache.keyed hcached).symm, ?_, ?_⟩
  · exact { hsame with }
  · rw [← hsame.queue]
    exact hnext

theorem Waits.rebuild (h : Waits json id channel cache queue) {channels : List Channel}
    {row : Channel} (hrow : channelById channels id = some row) (hsame : SamePolling channel row)
    (abilities : List Ability) :
    Waits json id channel (pollStep json sorting id (.rebuild channels abilities) cache).2
      queue := by
  unfold pollStep
  dsimp only
  cases hinit : initChannelCache sorting channels abilities cache with
  | none => exact h
  | some =>
    obtain ⟨cached, hcached, hsame', hqueue⟩ := h
    have hnew := channelsIDM_of_init hinit id
    rw [hrow, hcached, Option.map_some, keepPollingIndex,
      if_pos ⟨hsame.isMultiKey.trans hmulti, hsame.multiKeyMode.trans hmode,
        hsame'.isMultiKey.trans hmulti, hsame'.multiKeyMode.trans hmode⟩] at hnew
    refine ⟨_, hnew, ?_, hqueue⟩
    exact { hsame with }

end Steps

/-- A rebuild has read a channel whose keys have not changed. -/
def PollEvent.Unchanged (id : Nat) (channel : Channel) : PollEvent → Prop
  | .call _ => True
  | .rebuild channels _ => ∃ row, channelById channels id = some row ∧ SamePolling channel row

/--
As many calls as keys are enabled return each enabled key once, whatever the saved
index and however many rebuilds come between them; a call fails only if no key is
enabled.
-/
theorem polling_rotates (json : JsonArrays) (sorting : Sorting) (cache : Cache) (id : Nat)
    (channel : Channel) (hcached : cache.channelsIDM id = some channel)
    (hmulti : channel.channelInfo.isMultiKey = true)
    (hmode : channel.channelInfo.multiKeyMode = .polling) :
    (∀ events : List PollEvent, (∀ event ∈ events, event.Unchanged id channel) →
      events.countP PollEvent.isCall = (channel.enabledIdx json).length →
      ∃ indices : List Nat, indices.Perm (channel.enabledIdx json) ∧
        (Emitter.forEach (pollStep json sorting id) events cache).1 =
          indices.map fun idx => .ok ((getKeys json channel.key).getD idx "", idx)) ∧
    ∀ random e, (cache.nextKey json id random).1 = some (.error e) →
      channel.enabledIdx json = [] := by
  constructor
  · intro events hunchanged hcount
    have hperm := queue_perm json channel channel.channelInfo.multiKeyPollingIndex
    have hwaits : Waits json id channel cache
        (channel.queue json channel.channelInfo.multiKeyPollingIndex ++ []) :=
      ⟨channel, hcached, ⟨rfl, rfl, rfl, rfl⟩, (append_nil _).symm⟩
    refine ⟨_, hperm, Emitter.forEach_turns ?_ ?_ hwaits (hcount.trans hperm.length_eq.symm)⟩
    · intro event hevent hrebuild cache' queue hqueue
      cases event with
      | call => cases hrebuild
      | rebuild channels abilities =>
        obtain ⟨row, hrow, hsame⟩ := hunchanged _ hevent
        exact ⟨rfl, hqueue.rebuild hmulti hmode hrow hsame abilities⟩
    · intro event _ hcall cache' idx queue hqueue
      cases event with
      | call random => exact hqueue.call hmulti hmode random
      | rebuild => cases hcall
  · intro random e herror
    unfold Cache.nextKey cacheGetChannelInfo at herror
    rw [hcached] at herror
    have hperm := queue_perm json channel channel.channelInfo.multiKeyPollingIndex
    cases hqueue : channel.queue json channel.channelInfo.multiKeyPollingIndex with
    | nil =>
      rw [hqueue] at hperm
      exact hperm.nil_eq.symm
    | cons =>
      obtain ⟨index, hcall, -⟩ := getNextEnabledKey_of_queue hmulti hmode hqueue random
      dsimp only at herror
      rw [hcall] at herror
      cases herror

def threeKeys : Channel :=
  { id := 1, key := "a\nb\nc", status := 1, models := "gpt-4o", group := "default", priority := 0,
    weight := 0,
    channelInfo :=
      { isMultiKey := true, multiKeySize := 3, multiKeyMode := .polling, multiKeyPollingIndex := 7
        multiKeyStatusList := fun idx => if idx = 1 then some 3 else none } }

def threeKeysCache : Cache := Cache.empty.put threeKeys

theorem polling_rotates_across_rebuild :
    (threeKeys.enabledIdx ⟨fun _ => none, fun _ => none⟩ = [0, 2]) ∧
      ∃ indices : List Nat, indices.Perm [0, 2] ∧
        (Emitter.forEach (pollStep ⟨fun _ => none, fun _ => none⟩ Sorting.insertion 1)
          [.call 0, .rebuild [threeKeys] [threeKeys.ability "default" "gpt-4o"], .call 0]
          threeKeysCache).1 = indices.map fun idx => .ok (["a", "b", "c"].getD idx "", idx) := by
  refine ⟨by decide, (polling_rotates ⟨fun _ => none, fun _ => none⟩ Sorting.insertion
    threeKeysCache 1 threeKeys rfl rfl rfl).1
    [.call 0, .rebuild [threeKeys] [threeKeys.ability "default" "gpt-4o"], .call 0] ?_
    (by decide)⟩
  intro event hevent
  simp only [mem_cons, not_mem_nil, or_false] at hevent
  obtain rfl | rfl | rfl := hevent
  · trivial
  · exact ⟨threeKeys, rfl, rfl, rfl, rfl, rfl⟩
  · trivial

end NewApi.Routing
