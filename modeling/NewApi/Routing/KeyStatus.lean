import NewApi.Routing.Abilities
import NewApi.Routing.Cache

/-!
# Status changes in the cache and in the database

`UpdateChannelStatus` edits the cached channel first and the stored row after it,
each behind a test of its own.  The two copies of a multi-key channel agree after
every call exactly as long as no call finds its status already stored while the
key that it names still has to change.
-/

namespace NewApi.Routing

open Foundation
open Channels (JsonArrays getKeys)

def Cache.put (cache : Cache) (channel : Channel) : Cache where
  group2model2channels := cache.group2model2channels
  channelsIDM := fun id => if id = channel.id then some channel else cache.channelsIDM id
  keyed := by
    intro id other h
    split at h
    · next hid =>
      cases h
      exact hid.symm
    · exact cache.keyed h

section

variable (json : JsonArrays)

/--
The part of the call that works on the cache, up to `CacheUpdateChannelStatus`:
`none` if the call returns, otherwise the status that is to be written, if any.
-/
def inspectCached (cache : Cache) (call : StatusCall) : Option (Cache × Option Int) :=
  match cache.channelsIDM call.channelId with
  | none => none
  | some channel =>
    if channel.channelInfo.isMultiKey = true then
      let channel' := handlerMultiKeyUpdate json channel call
      some (cache.put channel',
        if channel.status ≠ channel'.status then some channel'.status else none)
    else if channel.status = call.status then none
    else some (cache, some call.status)

def editCached (cache : Cache) (id : Nat) (edit : Option Int) : Cache :=
  match edit with
  | none => cache
  | some status => cacheUpdateChannelStatus cache id status

structure Copies where
  store : Store
  cache : Cache

def updateChannelStatus (w : Copies) (call : StatusCall) : Copies × Bool :=
  match inspectCached json w.cache call with
  | none => (w, false)
  | some (cache, edit) =>
    let stored := w.store.updateChannelStatus json call
    (⟨stored.1, editCached cache call.channelId edit⟩, stored.2)

end

structure SameKeys (cached stored : Channel) : Prop where
  key : cached.key = stored.key
  isMultiKey : cached.channelInfo.isMultiKey = stored.channelInfo.isMultiKey
  status : cached.status = stored.status
  statusList : cached.channelInfo.multiKeyStatusList = stored.channelInfo.multiKeyStatusList

theorem setKeyStatus_isMultiKey (info : ChannelInfo) (i : Nat) (call : StatusCall) :
    (info.setKeyStatus i call).isMultiKey = info.isMultiKey := by
  unfold ChannelInfo.setKeyStatus
  split <;> rfl

theorem SameKeys.handlerMultiKeyUpdate {cached stored : Channel} (h : SameKeys cached stored)
    (json : JsonArrays) (call : StatusCall) :
    SameKeys (handlerMultiKeyUpdate json cached call) (handlerMultiKeyUpdate json stored call) := by
  have hlist (i : Nat) : (cached.channelInfo.setKeyStatus i call).multiKeyStatusList =
      (stored.channelInfo.setKeyStatus i call).multiKeyStatusList := by
    unfold ChannelInfo.setKeyStatus
    rw [h.statusList]
    split <;> rfl
  have hmulti (i : Nat) : (cached.channelInfo.setKeyStatus i call).isMultiKey =
      (stored.channelInfo.setKeyStatus i call).isMultiKey := by
    rw [setKeyStatus_isMultiKey, setKeyStatus_isMultiKey, h.isMultiKey]
  unfold Routing.handlerMultiKeyUpdate
  rw [h.key]
  dsimp only
  split
  · exact ⟨rfl, h.isMultiKey, rfl, h.statusList⟩
  split
  · split
    · exact h
    · exact ⟨rfl, h.isMultiKey, rfl, h.statusList⟩
  next keyIndex _ =>
  rw [hlist keyIndex]
  split
  · exact ⟨rfl, hmulti keyIndex, rfl, hlist keyIndex⟩
  split
  · exact ⟨rfl, hmulti keyIndex, rfl, hlist keyIndex⟩
  · exact ⟨rfl, hmulti keyIndex, h.status, hlist keyIndex⟩

theorem handlerMultiKeyUpdate_frame (json : JsonArrays) (channel : Channel) (call : StatusCall) :
    (handlerMultiKeyUpdate json channel call).id = channel.id ∧
      (handlerMultiKeyUpdate json channel call).key = channel.key ∧
      (handlerMultiKeyUpdate json channel call).channelInfo.isMultiKey =
        channel.channelInfo.isMultiKey := by
  unfold handlerMultiKeyUpdate
  dsimp only
  split
  · exact ⟨rfl, rfl, rfl⟩
  split
  · split <;> exact ⟨rfl, rfl, rfl⟩
  next keyIndex _ =>
  have hmulti := setKeyStatus_isMultiKey channel.channelInfo keyIndex call
  split
  · exact ⟨rfl, rfl, hmulti⟩
  split <;> exact ⟨rfl, rfl, hmulti⟩

section Call

variable (json : JsonArrays) {call : StatusCall}

theorem Cache.channelsIDM_put (cache : Cache) (channel : Channel) (id : Nat) :
    (cache.put channel).channelsIDM id =
      if id = channel.id then some channel else cache.channelsIDM id := rfl

private theorem editCached_of_ne (cache : Cache) {id id' : Nat} (h : id ≠ id') (edit : Option Int) :
    (editCached cache id' edit).channelsIDM id = cache.channelsIDM id := by
  cases edit with
  | none => rfl
  | some => exact if_neg h

private theorem get_updateChannelStatus_of_ne (s : Store) {id : Nat} (h : id ≠ call.channelId) :
    (s.updateChannelStatus json call).1.channels.get id = s.channels.get id := by
  unfold Store.updateChannelStatus
  split
  · rfl
  next channel hget =>
  split
  · rfl
  obtain ⟨status, otherInfo, channelInfo, heq⟩ := channel.withStatus_eq json call
  refine s.channels.get_save_ne ?_
  rw [heq]
  exact fun hid => h (hid.trans (s.channels.get_eq_some_iff.mp hget).2)

private theorem get_updateChannelStatus {s : Store} {stored : Channel}
    (hget : s.channels.get call.channelId = some stored) :
    (s.updateChannelStatus json call).1.channels.get call.channelId =
      some (if stored.status = call.status then stored else stored.withStatus json call) := by
  unfold Store.updateChannelStatus
  rw [hget]
  dsimp only
  split
  · exact hget
  obtain ⟨status, otherInfo, channelInfo, heq⟩ := stored.withStatus_eq json call
  have hid : (stored.withStatus json call).id = call.channelId := by
    rw [heq]
    exact (s.channels.get_eq_some_iff.mp hget).2
  have hsaved := s.channels.get_save_self (a := stored.withStatus json call) (hid.symm ▸ hget)
  rwa [hid] at hsaved

private theorem updateChannelStatus_of_ne (w : Copies) {id : Nat} (h : id ≠ call.channelId) :
    (updateChannelStatus json w call).1.cache.channelsIDM id = w.cache.channelsIDM id ∧
      (updateChannelStatus json w call).1.store.channels.get id = w.store.channels.get id := by
  unfold updateChannelStatus
  split
  · exact ⟨rfl, rfl⟩
  next cache edit hinspect =>
  refine ⟨?_, get_updateChannelStatus_of_ne json w.store h⟩
  rw [editCached_of_ne cache h]
  unfold inspectCached at hinspect
  split at hinspect
  · cases hinspect
  next channel hchannel =>
  split at hinspect
  · cases hinspect
    rw [Cache.channelsIDM_put, if_neg]
    rw [(handlerMultiKeyUpdate_frame json channel call).1, w.cache.keyed hchannel]
    exact h
  · split at hinspect
    · cases hinspect
    · cases hinspect
      rfl

theorem updateChannelStatus_multiKey {w : Copies} {cached stored : Channel}
    (hcached : w.cache.channelsIDM call.channelId = some cached)
    (hstored : w.store.channels.get call.channelId = some stored)
    (hsame : SameKeys cached stored) (hmulti : stored.channelInfo.isMultiKey = true) :
    (updateChannelStatus json w call).1.cache.channelsIDM call.channelId =
        some (handlerMultiKeyUpdate json cached call) ∧
      (updateChannelStatus json w call).1.store.channels.get call.channelId =
        some (if stored.status = call.status then stored
          else handlerMultiKeyUpdate json stored call) := by
  have hmulti' : cached.channelInfo.isMultiKey = true := hsame.isMultiKey.trans hmulti
  have hid : (handlerMultiKeyUpdate json cached call).id = call.channelId :=
    (handlerMultiKeyUpdate_frame json cached call).1.trans (w.cache.keyed hcached)
  unfold updateChannelStatus inspectCached
  rw [hcached]
  dsimp only
  rw [if_pos hmulti']
  dsimp only
  constructor
  · rw [← hid]
    split
    · simp [editCached, cacheUpdateChannelStatus, Cache.channelsIDM_put]
    · simp [editCached, Cache.channelsIDM_put]
  · rw [get_updateChannelStatus json hstored, Channel.withStatus, if_pos hmulti]

end Call

def CopiesAgree (id : Nat) (w : Copies) : Prop :=
  ∃ cached stored, w.cache.channelsIDM id = some cached ∧ w.store.channels.get id = some stored ∧
    cached.channelInfo.multiKeyStatusList = stored.channelInfo.multiKeyStatusList ∧
    cached.status = stored.status

/-- The call does not find its status already stored, or has nothing to change. -/
def InStep (json : JsonArrays) (id : Nat) (w : Copies) (call : StatusCall) : Prop :=
  call.channelId = id → ∀ stored, w.store.channels.get id = some stored →
    stored.status = call.status →
      (handlerMultiKeyUpdate json stored call).channelInfo.multiKeyStatusList =
          stored.channelInfo.multiKeyStatusList ∧
        (handlerMultiKeyUpdate json stored call).status = stored.status

def Paired (id : Nat) (w : Copies) : Prop :=
  ∃ cached stored, w.cache.channelsIDM id = some cached ∧ w.store.channels.get id = some stored ∧
    SameKeys cached stored ∧ stored.channelInfo.isMultiKey = true

variable {w : Copies} {json : JsonArrays} {id : Nat}

theorem Paired.copiesAgree (h : Paired id w) : CopiesAgree id w := by
  obtain ⟨cached, stored, hcached, hstored, hsame, -⟩ := h
  exact ⟨cached, stored, hcached, hstored, hsame.statusList, hsame.status⟩

theorem Paired.of_inStep {call : StatusCall} (h : Paired id w) (hstep : InStep json id w call) :
    Paired id (updateChannelStatus json w call).1 := by
  obtain ⟨cached, stored, hcached, hstored, hsame, hmulti⟩ := h
  by_cases hid : call.channelId = id
  · subst hid
    obtain ⟨hcached', hstored'⟩ := updateChannelStatus_multiKey json hcached hstored hsame hmulti
    have hedited := hsame.handlerMultiKeyUpdate json call
    refine ⟨_, _, hcached', hstored', ?_, ?_⟩
    · split
      · next hstatus =>
        obtain ⟨hlist, hkept⟩ := hstep rfl stored hstored hstatus
        have hframe := handlerMultiKeyUpdate_frame json stored call
        exact ⟨hedited.key.trans hframe.2.1, hedited.isMultiKey.trans hframe.2.2,
          hedited.status.trans hkept, hedited.statusList.trans hlist⟩
      · exact hedited
    · split
      · exact hmulti
      · rw [(handlerMultiKeyUpdate_frame json stored call).2.2]
        exact hmulti
  · obtain ⟨hcached', hstored'⟩ := updateChannelStatus_of_ne json w (fun h => hid h.symm)
    exact ⟨cached, stored, hcached'.trans hcached, hstored'.trans hstored, hsame, hmulti⟩

theorem Paired.inStep {call : StatusCall} (h : Paired id w)
    (hafter : CopiesAgree id (updateChannelStatus json w call).1) : InStep json id w call := by
  rintro rfl stored hstored hstatus
  obtain ⟨cached, stored', hcached, hstored', hsame, hmulti⟩ := h
  obtain rfl : stored = stored' := Option.some.inj (hstored.symm.trans hstored')
  obtain ⟨hcached', hstored''⟩ := updateChannelStatus_multiKey json hcached hstored hsame hmulti
  rw [if_pos hstatus] at hstored''
  obtain ⟨cachedAfter, storedAfter, hcachedAfter, hstoredAfter, hlist, hsameStatus⟩ := hafter
  obtain rfl := Option.some.inj (hcached'.symm.trans hcachedAfter)
  obtain rfl := Option.some.inj (hstored''.symm.trans hstoredAfter)
  have hedited := hsame.handlerMultiKeyUpdate json call
  exact ⟨hedited.statusList.symm.trans hlist, hedited.status.symm.trans hsameStatus⟩

/-- The copies agree after every call exactly when all calls are in step with the database. -/
theorem key_status_agrees_iff (json : JsonArrays) (sorting : Sorting) (s : Store)
    (old cache : Cache)
    (hinit : initChannelCache sorting s.channels.rows s.abilities.rows old = some cache)
    (id : Nat) (channel : Channel) (hget : s.channels.get id = some channel)
    (hmulti : channel.channelInfo.isMultiKey = true) (calls : List StatusCall) :
    (∀ before after, calls = before ++ after →
        CopiesAgree id (run (fun w call => (updateChannelStatus json w call).1) ⟨s, cache⟩
          before)) ↔
      Admits (fun w call => (updateChannelStatus json w call).1) (InStep json id) ⟨s, cache⟩
        calls := by
  have hpaired : Paired id ⟨s, cache⟩ := by
    obtain ⟨index, heq⟩ := keepPollingIndex_eq (old.channelsIDM id) channel
    have hcached : cache.channelsIDM id = some (keepPollingIndex (old.channelsIDM id) channel) := by
      rw [channelsIDM_of_init hinit]
      exact congrArg _ hget
    refine ⟨_, channel, hcached, hget, ?_, hmulti⟩
    rw [heq]
    exact ⟨rfl, rfl, rfl, rfl⟩
  have hside : Admits (fun w call => (updateChannelStatus json w call).1) (fun _ _ => True)
      ⟨s, cache⟩ calls := admits_of_forall (fun _ _ => trivial) _ _
  refine forall_prefix_iff_admits (fun (w : Copies) (hw : Paired id w) => hw.copiesAgree) ?_ ?_
    hpaired hside
  · intro w call hw _ hstep
    exact hw.of_inStep hstep
  · intro w call hw _ hafter
    exact hw.inStep hafter

def twoKeys : Channel :=
  { id := 1, key := "a\nb", status := 1, models := "gpt-4o", group := "default", priority := 0,
    weight := 0, channelInfo := { isMultiKey := true, multiKeySize := 2 } }

def twoKeysStore : Store where
  channels := ⟨[twoKeys], List.nodup_singleton _⟩
  abilities := ⟨[twoKeys.ability "default" "gpt-4o"], List.nodup_singleton _⟩

def twoKeysCopies : Copies where
  store := twoKeysStore
  cache := (initChannelCache Sorting.insertion twoKeysStore.channels.rows
    twoKeysStore.abilities.rows Cache.empty).getD Cache.empty

theorem key_status_agrees_after_disabling :
    CopiesAgree 1 (run (fun w call => (updateChannelStatus ⟨fun _ => none, fun _ => none⟩ w
      call).1) twoKeysCopies [{ channelId := 1, usingKey := "a", status := 3 }]) := by
  refine (key_status_agrees_iff ⟨fun _ => none, fun _ => none⟩ Sorting.insertion twoKeysStore
    Cache.empty _ rfl 1 twoKeys rfl rfl
    [{ channelId := 1, usingKey := "a", status := 3 }]).mpr ⟨?_, trivial⟩ _ [] rfl
  intro _ stored hstored hstatus
  obtain rfl : twoKeys = stored := Option.some.inj hstored
  exact absurd hstatus (by decide)

/-- The first key is disabled and then enabled again, which the database does not notice. -/
theorem key_status_drifts :
    ¬ CopiesAgree 1 (run (fun w call => (updateChannelStatus ⟨fun _ => none, fun _ => none⟩ w
      call).1) twoKeysCopies [{ channelId := 1, usingKey := "a", status := 3 },
        { channelId := 1, usingKey := "a", status := 1 }]) := by
  rintro ⟨cached, stored, hcached, hstored, hlist, -⟩
  cases hcached
  cases hstored
  exact absurd (congrFun hlist 0) (by decide)

end NewApi.Routing
