import NewApi.Routing.Channel

/-!
# The channel cache

`model/channel_cache.go` keeps for each group and model the ids of the enabled
channels, and all channels by id.  A rebuild reads the two tables, makes the
lists of a group for every group of an ability, and fills them from the
channels; a group without an ability has no map to write to, which is a crash.
-/

namespace NewApi.Routing

open Foundation List

abbrev Lists := String → Option (String → List Nat)

structure Cache where
  group2model2channels : Lists
  channelsIDM : Nat → Option Channel
  keyed : ∀ {id channel}, channelsIDM id = some channel → channel.id = id

def Cache.empty : Cache where
  group2model2channels := fun _ => none
  channelsIDM := fun _ => none
  keyed := by simp

def Cache.channelIds (cache : Cache) (group model : String) : List Nat :=
  match cache.group2model2channels group with
  | none => []
  | some inner => inner model

/-- `sort.Slice` by descending priority; the order of equal elements is not fixed. -/
structure Sorting where
  sort : (Nat → Int) → List Nat → List Nat
  perm : ∀ priority ids, (sort priority ids).Perm ids
  sorted : ∀ priority ids, (sort priority ids).Pairwise fun i j => priority j ≤ priority i

def Sorting.insertion : Sorting where
  sort := fun priority ids => ids.insertionSort fun i j => priority j ≤ priority i
  perm := fun _ _ => perm_insertionSort _ _
  sorted := by
    intro priority ids
    have : Std.Total fun i j : Nat => priority j ≤ priority i :=
      ⟨fun i j => Int.le_total (priority j) (priority i)⟩
    have : IsTrans Nat fun i j => priority j ≤ priority i :=
      ⟨fun _ _ _ hij hjk => Int.le_trans hjk hij⟩
    exact pairwise_insertionSort _ ids

def emptyLists (abilities : List Ability) : Lists := fun group =>
  if abilities.any (fun ability => decide (ability.group = group)) = true then some fun _ => []
  else none

/-- `none` is the write to a map that is missing. -/
def appendId (lists : Lists) (group model : String) (id : Nat) : Option Lists :=
  match lists group with
  | none => none
  | some inner =>
    some (Function.update lists group (some (Function.update inner model (inner model ++ [id]))))

section

variable (channels : List Channel)

def entries : List (String × String × Nat) :=
  (channels.filter fun channel => decide (channel.status = channelStatusEnabled)).flatMap
    fun channel => channel.groups.flatMap fun group =>
      channel.modelNames.map fun model => (group, model, channel.id)

def fillLists (lists : Lists) (writes : List (String × String × Nat)) : Option Lists :=
  writes.foldlM (fun lists entry => appendId lists entry.1 entry.2.1 entry.2.2) lists

def channelById (id : Nat) : Option Channel :=
  channels.find? fun channel => decide (channel.id = id)

def priorityOf (id : Nat) : Int := ((channelById channels id).map (·.priority)).getD 0

end

def buildLists (sorting : Sorting) (channels : List Channel) (abilities : List Ability) :
    Option Lists :=
  (fillLists (emptyLists abilities) (entries channels)).map fun lists group =>
    (lists group).map fun inner model => sorting.sort (priorityOf channels) (inner model)

def keepPollingIndex (old : Option Channel) (channel : Channel) : Channel :=
  match old with
  | none => channel
  | some oldChannel =>
    if channel.channelInfo.isMultiKey = true ∧ channel.channelInfo.multiKeyMode = .polling ∧
        oldChannel.channelInfo.isMultiKey = true ∧
        oldChannel.channelInfo.multiKeyMode = .polling then
      { channel with
        channelInfo :=
          { channel.channelInfo with
            multiKeyPollingIndex := oldChannel.channelInfo.multiKeyPollingIndex } }
    else channel

theorem keepPollingIndex_eq (old : Option Channel) (channel : Channel) :
    ∃ index, keepPollingIndex old channel =
      { channel with
        channelInfo := { channel.channelInfo with multiKeyPollingIndex := index } } := by
  unfold keepPollingIndex
  split
  · exact ⟨_, rfl⟩
  split <;> exact ⟨_, rfl⟩

variable {channels : List Channel} {id : Nat} {abilities : List Ability} {group model : String}
  {lists' : Lists} {old cache : Cache}

theorem channelById_eq_some {channel : Channel} (h : channelById channels id = some channel) :
    channel ∈ channels ∧ channel.id = id := ⟨mem_of_find?_eq_some h, by simpa using find?_some h⟩

/-- `InitChannelCache` with what its two queries returned and the cache that it replaces. -/
def initChannelCache (sorting : Sorting) (channels : List Channel) (abilities : List Ability)
    (old : Cache) : Option Cache :=
  (buildLists sorting channels abilities).map fun lists =>
    { group2model2channels := lists
      channelsIDM := fun id =>
        (channelById channels id).map (keepPollingIndex (old.channelsIDM id))
      keyed := by
        intro id channel h
        obtain ⟨row, hrow, rfl⟩ := Option.map_eq_some_iff.mp h
        obtain ⟨index, heq⟩ := keepPollingIndex_eq (old.channelsIDM id) row
        rw [heq]
        exact (channelById_eq_some hrow).2 }

def cacheUpdateChannelStatus (cache : Cache) (id : Nat) (status : Int) : Cache where
  group2model2channels :=
    if status ≠ channelStatusEnabled then
      fun group => (cache.group2model2channels group).map fun inner model => (inner model).erase id
    else cache.group2model2channels
  channelsIDM := fun i =>
    if i = id then (cache.channelsIDM i).map fun channel => { channel with status := status }
    else cache.channelsIDM i
  keyed := by
    intro i channel h
    split at h
    · obtain ⟨old, hold, rfl⟩ := Option.map_eq_some_iff.mp h
      have hid : old.id = i := cache.keyed hold
      exact hid
    · exact cache.keyed h

private theorem emptyLists_isSome_iff :
    (emptyLists abilities group).isSome = true ↔ ∃ ability ∈ abilities, ability.group = group := by
  unfold emptyLists
  split
  · next h => simpa using h
  · next h => simpa using h

def writtenTo (writes : List (String × String × Nat)) (group model : String) : List Nat :=
  (writes.filter fun entry => decide (entry.1 = group ∧ entry.2.1 = model)).map (·.2.2)

def appendWritten (lists : Lists) (writes : List (String × String × Nat)) : Lists := fun group =>
  (lists group).map fun inner model => inner model ++ writtenTo writes group model

variable {lists : Lists} {sorting : Sorting}

private theorem appendWritten_cons {entry : String × String × Nat}
    (h : appendId lists entry.1 entry.2.1 entry.2.2 = some lists')
    (writes : List (String × String × Nat)) :
    appendWritten lists' writes = appendWritten lists (entry :: writes) := by
  obtain ⟨group, model, id⟩ := entry
  unfold appendId at h
  split at h
  · cases h
  next inner hinner =>
  cases h
  funext g
  simp only [appendWritten, writtenTo]
  by_cases hg : g = group
  · subst hg
    simp only [Function.update_self, hinner, Option.map_some, Option.some.injEq]
    funext m
    by_cases hm : m = model
    · subst hm
      simp
    · have hne : model ≠ m := fun h => hm h.symm
      simp [hm, hne]
  · have hne : group ≠ g := fun h => hg h.symm
    simp [hg, hne]

theorem appendId_isSome_iff :
    (appendId lists group model id).isSome = true ↔ (lists group).isSome = true := by
  unfold appendId
  split
  · next h => simp [h]
  · next h => simp [h]

private theorem isSome_of_appendId (h : appendId lists group model id = some lists') (g : String) :
    (lists' g).isSome = (lists g).isSome := by
  unfold appendId at h
  split at h
  · cases h
  next inner hinner =>
  cases h
  by_cases hg : g = group
  · subst hg
    simp [hinner]
  · simp [hg]

theorem fillLists_eq (lists : Lists) (writes : List (String × String × Nat)) :
    fillLists lists writes =
      if ∀ entry ∈ writes, (lists entry.1).isSome = true then some (appendWritten lists writes)
      else none := by
  induction writes generalizing lists with
  | nil =>
    have hnothing : appendWritten lists [] = lists := by
      funext group
      simp [appendWritten, writtenTo]
    simp [fillLists, hnothing]
  | cons entry writes ih =>
    have hcons : fillLists lists (entry :: writes) =
        (appendId lists entry.1 entry.2.1 entry.2.2).bind fun lists => fillLists lists writes := rfl
    rw [hcons]
    cases happend : appendId lists entry.1 entry.2.1 entry.2.2 with
    | none =>
      have hmissing : ¬ (lists entry.1).isSome = true := by
        rw [← appendId_isSome_iff, happend]
        simp
      rw [if_neg fun h => hmissing (h entry mem_cons_self)]
      rfl
    | some =>
      have hpresent : (lists entry.1).isSome = true := by
        rw [← appendId_isSome_iff, happend]
        rfl
      rw [Option.bind_some, ih, appendWritten_cons happend]
      simp only [isSome_of_appendId happend, forall_mem_cons, hpresent, true_and]

theorem buildLists_isSome_iff :
    (buildLists sorting channels abilities).isSome = true ↔
      ∀ entry ∈ entries channels, ∃ ability ∈ abilities, ability.group = entry.1 := by
  rw [buildLists, Option.isSome_map, fillLists_eq]
  simp only [emptyLists_isSome_iff]
  split
  · next h => exact iff_of_true rfl h
  · next h => exact iff_of_false (by simp) h

theorem mem_entries :
    (group, model, id) ∈ entries channels ↔
      ∃ channel ∈ channels, channel.status = channelStatusEnabled ∧ group ∈ channel.groups ∧
        model ∈ channel.modelNames ∧ channel.id = id := by
  simp only [entries, mem_flatMap, mem_filter, mem_map, Prod.mk.injEq, decide_eq_true_eq]
  constructor
  · rintro ⟨channel, ⟨hchannel, hstatus⟩, group', hgroup, model', hmodel, rfl, rfl, rfl⟩
    exact ⟨channel, hchannel, hstatus, hgroup, hmodel, rfl⟩
  · rintro ⟨channel, hchannel, hstatus, hgroup, hmodel, rfl⟩
    exact ⟨channel, ⟨hchannel, hstatus⟩, group, hgroup, model, hmodel, rfl, rfl, rfl⟩

theorem mem_writtenTo {writes : List (String × String × Nat)} :
    id ∈ writtenTo writes group model ↔ (group, model, id) ∈ writes := by
  simp only [writtenTo, mem_map, mem_filter, decide_eq_true_eq]
  constructor
  · rintro ⟨⟨group', model', id'⟩, ⟨hentry, rfl, rfl⟩, rfl⟩
    exact hentry
  · intro hentry
    exact ⟨(group, model, id), ⟨hentry, rfl, rfl⟩, rfl⟩

section

variable (h : initChannelCache sorting channels abilities old = some cache)
include h

theorem channelIds_perm (group model : String) :
    (cache.channelIds group model).Perm (writtenTo (entries channels) group model) := by
  obtain ⟨sorted, hsorted, rfl⟩ := Option.map_eq_some_iff.mp h
  obtain ⟨lists, hlists, rfl⟩ := Option.map_eq_some_iff.mp hsorted
  rw [fillLists_eq] at hlists
  split at hlists
  · next hpresent =>
    cases hlists
    simp only [Cache.channelIds, appendWritten, Option.map_map]
    cases hgroup : emptyLists abilities group with
    | none =>
      -- a list that is missing was not written to
      have hnone : writtenTo (entries channels) group model = [] := by
        refine eq_nil_iff_forall_not_mem.mpr fun id hid => ?_
        have hwritten := hpresent _ (mem_writtenTo.mp hid)
        rw [hgroup] at hwritten
        cases hwritten
      rw [hnone]
      exact List.Perm.nil
    | some inner =>
      have hinner : inner model = [] := by
        unfold emptyLists at hgroup
        split at hgroup
        · cases hgroup
          rfl
        · cases hgroup
      have hperm := sorting.perm (priorityOf channels)
        (inner model ++ writtenTo (entries channels) group model)
      rw [hinner, nil_append] at hperm
      simpa [hinner] using hperm
  · cases hlists

theorem mem_channelIds :
    id ∈ cache.channelIds group model ↔
      ∃ channel ∈ channels, channel.status = channelStatusEnabled ∧ group ∈ channel.groups ∧
        model ∈ channel.modelNames ∧ channel.id = id := by
  rw [(channelIds_perm h group model).mem_iff, mem_writtenTo, mem_entries]

theorem channelsIDM_of_init (id : Nat) :
    cache.channelsIDM id =
      (channelById channels id).map (keepPollingIndex (old.channelsIDM id)) := by
  obtain ⟨lists, -, rfl⟩ := Option.map_eq_some_iff.mp h
  rfl

end

end NewApi.Routing
