import NewApi.Routing.Abilities
import NewApi.Routing.Selection

/-!
# The cache and the database choose alike

A cache that has just been built from a database whose abilities mirror its
channels, against the queries of the database itself.  Both draw among the same
channels wherever the model is served under its own name; only the cache goes
on to the name with a wildcard.
-/

namespace NewApi.Routing

open Foundation List

theorem getChannelQuery_eq {abilities : List Ability} (hne : abilities ≠ []) (retry : Nat) :
    getChannelQuery abilities retry =
      .ok (abilities.filter fun ability =>
        decide (ability.priority = targetPriority (abilities.map (·.priority)) retry)) := by
  unfold getChannelQuery
  split
  · next hretry =>
    subst hretry
    refine congrArg Except.ok (filter_congr fun ability hability => ?_)
    have hiff := eq_targetPriority_zero_iff
      (mem_map_of_mem (f := fun ability : Ability => ability.priority) hability)
    rw [Bool.eq_iff_iff, decide_eq_true_eq, hiff]
    simp
  · cases abilities with
    | nil => exact absurd rfl hne
    | cons => rfl

section Database

variable {byWeight : OrderByWeight} {s : Store} {group model : String}

def queried (byWeight : OrderByWeight) (s : Store) (group model : String) (retry : Nat) :
    List Ability :=
  byWeight.order ((enabledAbilities s group model).filter fun ability =>
    decide (ability.priority =
      targetPriority ((enabledAbilities s group model).map (·.priority)) retry))

theorem mem_queried {retry : Nat} {ability : Ability} :
    ability ∈ queried byWeight s group model retry ↔
      ability ∈ enabledAbilities s group model ∧ ability.priority =
        targetPriority ((enabledAbilities s group model).map (·.priority)) retry := by
  simp [queried, (byWeight.perm _).mem_iff]

theorem queried_ne_nil (byWeight : OrderByWeight) (hne : enabledAbilities s group model ≠ [])
    (retry : Nat) : queried byWeight s group model retry ≠ [] := by
  have hpriorities : (enabledAbilities s group model).map (·.priority) ≠ [] := by simpa using hne
  obtain ⟨ability, hability, hpriority⟩ := mem_map.mp (isTarget_targetPriority hpriorities retry).1
  exact ne_nil_of_mem (mem_queried.mpr ⟨hability, hpriority⟩)

theorem chooseAbility_isSome {abilities : List Ability} (hne : abilities ≠ []) (random : Nat) :
    (chooseAbility abilities random).isSome = true := by
  obtain ⟨ability, abilities, rfl⟩ := exists_cons_of_ne_nil hne
  refine draw_le_isSome _ hne (Nat.mod_lt random ?_)
  simp only [weightSum, total]
  omega

section

variable (hne : enabledAbilities s group model ≠ [])
include hne

theorem returnedId_getChannel
    (hstored : ∀ ability ∈ enabledAbilities s group model,
      (s.channels.get ability.channelId).isSome = true) (retry random : Nat) :
    returnedId (getChannel byWeight s group model retry random) =
      (chooseAbility (queried byWeight s group model retry) random).map (·.channelId) := by
  have hqueried := queried_ne_nil byWeight hne retry
  obtain ⟨ability, hability⟩ := Option.isSome_iff_exists.mp (chooseAbility_isSome hqueried random)
  obtain ⟨channel, hchannel⟩ := Option.isSome_iff_exists.mp
    (hstored ability (mem_queried.mp (draw_mem hability)).1)
  rw [getChannel, getChannelQuery_eq hne]
  dsimp only
  split
  · next hempty => exact absurd hempty hqueried
  rw [← queried, hability]
  dsimp only
  rw [hchannel]
  exact congrArg some (s.channels.get_eq_some_iff.mp hchannel).2

private theorem exists_getChannel_iff
    (hstored : ∀ ability ∈ enabledAbilities s group model,
      (s.channels.get ability.channelId).isSome = true) (retry id : Nat) :
    (∃ random, returnedId (getChannel byWeight s group model retry random) = some id) ↔
      ∃ ability ∈ queried byWeight s group model retry, ability.channelId = id := by
  simp only [returnedId_getChannel hne hstored, Option.map_eq_some_iff]
  constructor
  · rintro ⟨random, ability, hability, hid⟩
    exact ⟨ability, draw_mem hability, hid⟩
  · rintro ⟨ability, hability, hid⟩
    obtain ⟨r, hr, hdraw⟩ := exists_draw_le (fun ability : Ability => ability.weight + 10) hability
      (show 1 < ability.weight + 10 by omega)
    refine ⟨r, ability, ?_, hid⟩
    rw [chooseAbility, weightSum, Nat.mod_eq_of_lt hr, hdraw]

end

end Database

private theorem exists_getRandomSatisfiedChannel_iff {cache : Cache} {group model : String}
    (hknown : cache.Known group model) (hne : cache.candidateIds group model ≠ [])
    (hweights : ∀ channel ∈ cache.candidates group model, 0 < channel.weight) (retry id : Nat) :
    (∃ random, returnedId (getRandomSatisfiedChannel cache group model retry random) = some id) ↔
      ∃ channel ∈ cache.targets group model retry, channel.id = id := by
  simp only [getRandomSatisfiedChannel_eq hknown hne]
  constructor
  · rintro ⟨random, hreturned⟩
    obtain ⟨channel, hchannel⟩ := Option.isSome_iff_exists.mp
      (pickTarget_isSome (targets_ne_nil hknown hne retry) random)
    rw [hchannel] at hreturned
    exact ⟨channel, draw_mem hchannel, Option.some.inj hreturned⟩
  · rintro ⟨channel, hchannel, rfl⟩
    have hpos : 0 < effectiveWeight (cache.targets group model retry) channel :=
      Nat.add_pos_left (Nat.mul_pos (hweights channel (mem_targets.mp hchannel).1)
        (smoothingFactor_pos _)) _
    obtain ⟨r, hr, hdraw⟩ := exists_draw_lt _ hchannel hpos
    rw [Nat.add_zero, total_effectiveWeight] at hr
    refine ⟨r, ?_⟩
    rw [pickTarget_of_lt hr, hdraw]
    rfl

structure Serving (s : Store) (group model : String) (channel : Channel) : Prop where
  stored : channel ∈ s.channels.rows
  enabled : channel.status = channelStatusEnabled
  group : group ∈ channel.groups
  model : model ∈ channel.modelNames

def Served (s : Store) (group model : String) : Prop := ∃ channel, Serving s group model channel

/-- The same channels can be returned, and none is in the same cases. -/
def Agree (byWeight : OrderByWeight) (s : Store) (cache : Cache) (group model : String)
    (retry : Nat) : Prop :=
  (∀ id,
    (∃ random, returnedId (getRandomSatisfiedChannel cache group model retry random) = some id) ↔
      ∃ random, returnedId (getChannel byWeight s group model retry random) = some id) ∧
  ∀ random random',
    returnedId (getRandomSatisfiedChannel cache group model retry random) = none ↔
      returnedId (getChannel byWeight s group model retry random') = none

section Paths

variable {s : Store} {group model : String}

theorem mem_enabledAbilities (hs : Mirrors s) {ability : Ability} :
    ability ∈ enabledAbilities s group model ↔
      ∃ channel, Serving s group model channel ∧ channel.ability group model = ability := by
  simp only [enabledAbilities, mem_filter, Bool.and_eq_true, decide_eq_true_eq]
  constructor
  · rintro ⟨hrow, ⟨rfl, rfl⟩, henabled⟩
    obtain ⟨channel, hchannel, group, hgroup, model, hmodel, rfl⟩ := (hs ability).mp hrow
    exact ⟨channel, ⟨hchannel, of_decide_eq_true henabled, hgroup, hmodel⟩, rfl⟩
  · rintro ⟨channel, hserving, rfl⟩
    refine ⟨(hs _).mpr ⟨channel, hserving.stored, group, hserving.group, model, hserving.model,
      rfl⟩, ⟨rfl, rfl⟩, decide_eq_true hserving.enabled⟩

theorem ne_nil_iff_served {α : Type} {l : List α} {f : Channel → α}
    (h : ∀ a, a ∈ l ↔ ∃ channel, Serving s group model channel ∧ f channel = a) :
    l ≠ [] ↔ Served s group model := by
  constructor
  · intro hne
    obtain ⟨a, ha⟩ := exists_mem_of_ne_nil _ hne
    obtain ⟨channel, hserving, -⟩ := (h a).mp ha
    exact ⟨channel, hserving⟩
  · rintro ⟨channel, hserving⟩
    exact ne_nil_of_mem ((h _).mpr ⟨channel, hserving, rfl⟩)

theorem enabledAbilities_ne_nil_iff (hs : Mirrors s) :
    enabledAbilities s group model ≠ [] ↔ Served s group model :=
  ne_nil_iff_served fun _ => mem_enabledAbilities hs

private theorem stored_of_enabledAbilities (hs : Mirrors s) :
    ∀ ability ∈ enabledAbilities s group model,
      (s.channels.get ability.channelId).isSome = true := by
  intro ability hability
  obtain ⟨channel, hserving, rfl⟩ := (mem_enabledAbilities hs).mp hability
  exact Option.isSome_iff_exists.mpr
    ⟨channel, s.channels.get_eq_some_iff.mpr ⟨hserving.stored, rfl⟩⟩

variable {sorting : Sorting} {old cache : Cache}
  (hinit : initChannelCache sorting s.channels.rows s.abilities.rows old = some cache)

include hinit

variable {id : Nat} {channel : Channel}

theorem mem_channelIds_iff :
    id ∈ cache.channelIds group model ↔
      ∃ channel, Serving s group model channel ∧ channel.id = id := by
  rw [mem_channelIds hinit]
  constructor
  · rintro ⟨channel, hchannel, hstatus, hgroup, hmodel, hid⟩
    exact ⟨channel, ⟨hchannel, hstatus, hgroup, hmodel⟩, hid⟩
  · rintro ⟨channel, hserving, hid⟩
    exact ⟨channel, hserving.stored, hserving.enabled, hserving.group, hserving.model, hid⟩

theorem channelIds_ne_nil_iff : cache.channelIds group model ≠ [] ↔ Served s group model :=
  ne_nil_iff_served fun _ => mem_channelIds_iff hinit

theorem channelsIDM_of_stored (h : channel ∈ s.channels.rows) :
    cache.channelsIDM channel.id =
      some (keepPollingIndex (old.channelsIDM channel.id) channel) := by
  have hget : channelById s.channels.rows channel.id = some channel :=
    s.channels.get_eq_some_iff.mpr ⟨h, rfl⟩
  rw [channelsIDM_of_init hinit, hget]
  rfl

private theorem isSome_channelsIDM (h : id ∈ cache.channelIds group model) :
    (cache.channelsIDM id).isSome = true := by
  obtain ⟨channel, hserving, rfl⟩ := (mem_channelIds_iff hinit).mp h
  rw [channelsIDM_of_stored hinit hserving.stored]
  rfl

theorem known_of_init : cache.Known group model := by
  intro id hid
  unfold Cache.candidateIds at hid
  split at hid <;> exact isSome_channelsIDM hinit hid

theorem candidateIds_of_served (hserved : Served s group model) :
    cache.candidateIds group model = cache.channelIds group model :=
  if_neg ((channelIds_ne_nil_iff hinit).mpr hserved)

theorem mem_candidates_iff {name : String}
    (hids : cache.candidateIds group model = cache.channelIds group name) :
    channel ∈ cache.candidates group model ↔
      ∃ row, Serving s group name row ∧
        keepPollingIndex (old.channelsIDM row.id) row = channel := by
  rw [Cache.candidates, hids, mem_filterMap]
  constructor
  · rintro ⟨id, hid, hchannel⟩
    obtain ⟨row, hserving, rfl⟩ := (mem_channelIds_iff hinit).mp hid
    rw [channelsIDM_of_stored hinit hserving.stored] at hchannel
    exact ⟨row, hserving, Option.some.inj hchannel⟩
  · rintro ⟨row, hserving, rfl⟩
    exact ⟨row.id, (mem_channelIds_iff hinit).mpr ⟨row, hserving, rfl⟩,
      channelsIDM_of_stored hinit hserving.stored⟩

omit hinit in
theorem keepPollingIndex_columns (before : Option Channel) (channel : Channel) :
    (keepPollingIndex before channel).id = channel.id ∧
      (keepPollingIndex before channel).priority = channel.priority ∧
      (keepPollingIndex before channel).weight = channel.weight := by
  obtain ⟨index, heq⟩ := keepPollingIndex_eq before channel
  rw [heq]
  exact ⟨rfl, rfl, rfl⟩

theorem targetPriority_paths (hs : Mirrors s) (hserved : Served s group model) (retry : Nat) :
    targetPriority ((cache.candidates group model).map (·.priority)) retry =
      targetPriority ((enabledAbilities s group model).map (·.priority)) retry := by
  refine targetPriority_congr (fun priority => ?_) retry
  simp only [mem_map, mem_candidates_iff hinit (candidateIds_of_served hinit hserved),
    mem_enabledAbilities hs]
  constructor
  · rintro ⟨channel, ⟨row, hserving, rfl⟩, rfl⟩
    exact ⟨_, ⟨row, hserving, rfl⟩, (keepPollingIndex_columns _ row).2.1.symm⟩
  · rintro ⟨ability, ⟨row, hserving, rfl⟩, rfl⟩
    exact ⟨_, ⟨row, hserving, rfl⟩, (keepPollingIndex_columns _ row).2.1⟩

private theorem agree_of_served (byWeight : OrderByWeight) (hs : Mirrors s)
    (hweights : ∀ channel ∈ s.channels.rows, 0 < channel.weight) (hserved : Served s group model)
    (retry : Nat) : Agree byWeight s cache group model retry := by
  have hknown : cache.Known group model := known_of_init hinit
  have hown := candidateIds_of_served hinit hserved
  have hids : cache.candidateIds group model ≠ [] :=
    hown ▸ (channelIds_ne_nil_iff hinit).mpr hserved
  have hpositive : ∀ channel ∈ cache.candidates group model, 0 < channel.weight := by
    intro channel hchannel
    obtain ⟨row, hserving, rfl⟩ := (mem_candidates_iff hinit hown).mp hchannel
    rw [(keepPollingIndex_columns _ row).2.2]
    exact hweights row hserving.stored
  have habilities := (enabledAbilities_ne_nil_iff hs).mpr hserved
  have hstored : ∀ ability ∈ enabledAbilities s group model, _ := stored_of_enabledAbilities hs
  refine ⟨fun id => ?_, fun random random' => ?_⟩
  · rw [exists_getRandomSatisfiedChannel_iff hknown hids hpositive,
      exists_getChannel_iff habilities hstored]
    simp only [mem_targets, mem_queried, mem_candidates_iff hinit hown, mem_enabledAbilities hs,
      targetPriority_paths hinit hs hserved]
    constructor
    · rintro ⟨channel, ⟨⟨row, hserving, rfl⟩, hpriority⟩, rfl⟩
      rw [(keepPollingIndex_columns _ row).2.1] at hpriority
      exact ⟨_, ⟨⟨row, hserving, rfl⟩, hpriority⟩, (keepPollingIndex_columns _ row).1.symm⟩
    · rintro ⟨ability, ⟨⟨row, hserving, rfl⟩, hpriority⟩, rfl⟩
      refine ⟨_, ⟨⟨row, hserving, rfl⟩, ?_⟩, (keepPollingIndex_columns _ row).1⟩
      rw [(keepPollingIndex_columns _ row).2.1]
      exact hpriority
  · refine iff_of_false ?_ ?_
    · obtain ⟨channel, hchannel⟩ := Option.isSome_iff_exists.mp
        (pickTarget_isSome (targets_ne_nil hknown hids retry) random)
      rw [getRandomSatisfiedChannel_eq hknown hids, hchannel]
      simp [returnedId]
    · obtain ⟨ability, hability⟩ := Option.isSome_iff_exists.mp
        (chooseAbility_isSome (queried_ne_nil byWeight habilities retry) random')
      rw [returnedId_getChannel habilities hstored, hability]
      simp

end Paths

section

variable {s : Store} {group model : String}

theorem returnedId_getChannel_of_nil (byWeight : OrderByWeight)
    (h : enabledAbilities s group model = []) (retry random : Nat) :
    returnedId (getChannel byWeight s group model retry random) = none := by
  rw [getChannel, h]
  by_cases hretry : retry = 0
  · rw [getChannelQuery, if_pos hretry]
    simp [(byWeight.perm []).eq_nil, returnedId]
  · rw [getChannelQuery, if_neg hretry]
    rfl

theorem exists_cache_of_mirrors (sorting : Sorting) (hs : Mirrors s) (old : Cache) :
    ∃ cache, initChannelCache sorting s.channels.rows s.abilities.rows old = some cache := by
  rw [← Option.isSome_iff_exists, initChannelCache, Option.isSome_map, buildLists_isSome_iff]
  rintro ⟨group, model, id⟩ hentry
  obtain ⟨channel, hchannel, -, hgroup, hmodel, -⟩ := mem_entries.mp hentry
  exact ⟨_, (hs _).mpr ⟨channel, hchannel, group, hgroup, model, hmodel, rfl⟩, rfl⟩

end

/-- The cache falls back to the name with a wildcard, the database does not. -/
theorem paths_agree_iff (sorting : Sorting) (byWeight : OrderByWeight) (s : Store) (old : Cache)
    (hs : Mirrors s) (hweights : ∀ channel ∈ s.channels.rows, 0 < channel.weight)
    (group model : String) (retry : Nat) :
    ∃ cache, initChannelCache sorting s.channels.rows s.abilities.rows old = some cache ∧
      (Agree byWeight s cache group model retry ↔
        Served s group model ∨ ¬ Served s group (formatMatchingModelName model)) := by
  obtain ⟨cache, hinit⟩ := exists_cache_of_mirrors sorting hs old
  refine ⟨cache, hinit, ?_⟩
  by_cases hserved : Served s group model
  · exact iff_of_true (agree_of_served hinit byWeight hs hweights hserved retry) (.inl hserved)
  · rw [or_iff_right hserved]
    have hempty : cache.channelIds group model = [] :=
      not_not.mp fun hne => hserved ((channelIds_ne_nil_iff hinit).mp hne)
    have habilities : enabledAbilities s group model = [] :=
      not_not.mp fun hne => hserved ((enabledAbilities_ne_nil_iff hs).mp hne)
    have hids : cache.candidateIds group model =
        cache.channelIds group (formatMatchingModelName model) := if_pos hempty
    have hdatabase := returnedId_getChannel_of_nil byWeight habilities retry
    constructor
    · rintro ⟨-, hnone⟩ hfallback
      have hne : cache.candidateIds group model ≠ [] := by
        rw [hids]
        exact (channelIds_ne_nil_iff hinit).mpr hfallback
      have hcached := (hnone 0 0).mpr (hdatabase 0)
      obtain ⟨channel, hchannel⟩ := Option.isSome_iff_exists.mp
        (pickTarget_isSome (targets_ne_nil (known_of_init hinit) hne retry) 0)
      rw [getRandomSatisfiedChannel_eq (known_of_init hinit) hne, hchannel] at hcached
      cases hcached
    · intro hfallback
      have hnil : cache.candidateIds group model = [] := by
        rw [hids]
        exact not_not.mp fun hne => hfallback ((channelIds_ne_nil_iff hinit).mp hne)
      have hcached (random : Nat) :
          returnedId (getRandomSatisfiedChannel cache group model retry random) = none := by
        rw [getRandomSatisfiedChannel, hnil]
        rfl
      refine ⟨fun id => ?_, fun random random' => ?_⟩ <;> simp [hcached, hdatabase]

def gizmoStore : Store :=
  (Store.empty.insert 1 { models := "gpt-4-gizmo-*", weight := some 1 }).getD Store.empty

theorem mirrors_gizmoStore : Mirrors gizmoStore := by
  refine (mirrors_insert_iff mirrors_empty 1 _).mpr fun _ => ?_
  unfold Channel.Separable
  decide

theorem paths_agree_at_wildcard :
    ∃ cache, initChannelCache Sorting.insertion gizmoStore.channels.rows gizmoStore.abilities.rows
        Cache.empty = some cache ∧
      Agree OrderByWeight.insertion gizmoStore cache "default" "gpt-4-gizmo-*" 0 := by
  obtain ⟨cache, hinit, hagree⟩ := paths_agree_iff Sorting.insertion OrderByWeight.insertion
    gizmoStore Cache.empty mirrors_gizmoStore (forall_mem_singleton.mpr Nat.one_pos) "default"
    "gpt-4-gizmo-*" 0
  refine ⟨cache, hinit, hagree.mpr (.inl ?_)⟩
  exact ⟨_, mem_singleton_self _, rfl, by decide, by decide⟩

/-- A name that stands for the wildcard is found in the cache only. -/
theorem paths_disagree_at_gizmo :
    Mirrors gizmoStore ∧
      returnedId (getRandomSatisfiedChannel
        ((initChannelCache Sorting.insertion gizmoStore.channels.rows gizmoStore.abilities.rows
          Cache.empty).getD Cache.empty) "default" "gpt-4-gizmo-abc" 0 0) = some 1 ∧
      returnedId (getChannel OrderByWeight.insertion gizmoStore "default" "gpt-4-gizmo-abc" 0 0) =
        none :=
  ⟨mirrors_gizmoStore, by decide, by decide⟩

def Resolves (s : Store) (group model name : String) : Prop :=
  name = model ∧ Served s group model ∨
    name = formatMatchingModelName model ∧ ¬ Served s group model

/-- A cache just built never fails: a row that serves the name is chosen, or its wildcard if none
does, of the highest priority at first. -/
theorem selection_from_fresh_cache (sorting : Sorting) (s : Store) (old cache : Cache)
    (hinit : initChannelCache sorting s.channels.rows s.abilities.rows old = some cache)
    (group model : String) (retry random : Nat) :
    ∃ name, Resolves s group model name ∧
      match getRandomSatisfiedChannel cache group model retry random with
      | .ok (some channel) => ∃ row, Serving s group name row ∧ row.id = channel.id ∧
          (retry = 0 → ∀ other, Serving s group name other → other.priority ≤ row.priority)
      | .ok none => ¬ Served s group name
      | .error _ => False := by
  have hnil (name : String) (h : ¬ Served s group name) : cache.channelIds group name = [] :=
    not_not.mp fun hne => h ((channelIds_ne_nil_iff hinit).mp hne)
  obtain ⟨name, hname, hids⟩ : ∃ name, Resolves s group model name ∧
      cache.candidateIds group model = cache.channelIds group name := by
    by_cases hserved : Served s group model
    · exact ⟨model, .inl ⟨rfl, hserved⟩, candidateIds_of_served hinit hserved⟩
    · exact ⟨_, .inr ⟨rfl, hserved⟩, if_pos (hnil model hserved)⟩
  refine ⟨name, hname, ?_⟩
  by_cases hserved : Served s group name
  · have hne : cache.candidateIds group model ≠ [] :=
      hids ▸ (channelIds_ne_nil_iff hinit).mpr hserved
    have hknown : cache.Known group model := known_of_init hinit
    obtain ⟨channel, hpick⟩ := Option.isSome_iff_exists.mp
      (pickTarget_isSome (targets_ne_nil hknown hne retry) random)
    rw [getRandomSatisfiedChannel_eq hknown hne, hpick]
    obtain ⟨hchannel, hpriority⟩ := mem_targets.mp (draw_mem hpick)
    have hmem := mem_map_of_mem (f := fun c : Channel => c.priority) hchannel
    obtain ⟨row, hrow, rfl⟩ := (mem_candidates_iff hinit hids).mp hchannel
    obtain ⟨hid, hsame, -⟩ := keepPollingIndex_columns (old.channelsIDM row.id) row
    refine ⟨row, hrow, hid.symm, fun hretry other hother => ?_⟩
    rw [hretry, eq_targetPriority_zero_iff hmem, hsame] at hpriority
    have hcached := (mem_candidates_iff hinit hids).mpr ⟨other, hother, rfl⟩
    exact hpriority _ (mem_map.mpr ⟨_, hcached, (keepPollingIndex_columns _ other).2.1⟩)
  · rw [getRandomSatisfiedChannel, hids, hnil name hserved]
    exact hserved

theorem selection_from_fresh_cache_gizmo :
    ∃ cache, initChannelCache Sorting.insertion gizmoStore.channels.rows gizmoStore.abilities.rows
        Cache.empty = some cache ∧
      ∀ e, getRandomSatisfiedChannel cache "default" "gpt-4-gizmo-abc" 0 0 ≠ .error e := by
  obtain ⟨cache, hinit⟩ := exists_cache_of_mirrors Sorting.insertion mirrors_gizmoStore Cache.empty
  obtain ⟨name, -, hresult⟩ := selection_from_fresh_cache _ _ _ _ hinit "default"
    "gpt-4-gizmo-abc" 0 0
  refine ⟨cache, hinit, fun e herror => ?_⟩
  rw [herror] at hresult
  exact hresult

end NewApi.Routing
