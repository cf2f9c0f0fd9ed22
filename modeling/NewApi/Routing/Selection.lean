import Mathlib.Data.List.GetD
import NewApi.Foundation.Draws
import NewApi.Routing.Cache

/-!
# Choosing a channel

The two implementations of the choice: `GetRandomSatisfiedChannel` on the lists of
the cache, and `GetChannel` on the table of abilities.  Both take the channels of
one priority and draw among them by running subtraction.
-/

namespace NewApi.Routing

open Foundation List Nat

def handleThinkingBudgetModel (name start wildcard : String) : String :=
  if hasPrefix name start = true ∧ contains name "-thinking-" = true then wildcard else name

def formatMatchingModelName (name : String) : String :=
  let name :=
    if hasPrefix name "gemini-2.5-flash-lite" = true then
      handleThinkingBudgetModel name "gemini-2.5-flash-lite" "gemini-2.5-flash-lite-thinking-*"
    else if hasPrefix name "gemini-2.5-flash" = true then
      handleThinkingBudgetModel name "gemini-2.5-flash" "gemini-2.5-flash-thinking-*"
    else if hasPrefix name "gemini-2.5-pro" = true then
      handleThinkingBudgetModel name "gemini-2.5-pro" "gemini-2.5-pro-thinking-*"
    else name
  let name := if hasPrefix name "gpt-4-gizmo" = true then "gpt-4-gizmo-*" else name
  if hasPrefix name "gpt-4o-gizmo" = true then "gpt-4o-gizmo-*" else name

inductive SelectError where
  | channelMissing (id : Nat)
  | noChannelFound (group model : String) (priority : Int)
  | channelNotFound
  | recordNotFound
  | consistencyBroken

def targetPriority (priorities : List Int) (retry : Nat) : Int :=
  (descending priorities).getD (min retry ((descending priorities).length - 1)) 0

def Cache.candidateIds (cache : Cache) (group model : String) : List Nat :=
  if cache.channelIds group model = [] then
    cache.channelIds group (formatMatchingModelName model)
  else cache.channelIds group model

def Cache.lookupAll (cache : Cache) : List Nat → Except SelectError (List Channel)
  | [] => .ok []
  | id :: ids =>
    match cache.channelsIDM id with
    | none => .error (.channelMissing id)
    | some channel => (cache.lookupAll ids).map (channel :: ·)

section

variable (targets : List Channel)

def sumWeight : Nat := total Channel.weight targets

def smoothingFactor : Nat :=
  if sumWeight targets = 0 then 1
  else if sumWeight targets / targets.length < 10 then 100
  else 1

def smoothingAdjustment : Nat :=
  if sumWeight targets = 0 then 100 else 0

def totalWeight : Nat :=
  (if sumWeight targets = 0 then targets.length * 100 else sumWeight targets) *
    smoothingFactor targets

def effectiveWeight (channel : Channel) : Nat :=
  channel.weight * smoothingFactor targets + smoothingAdjustment targets

def pickTarget (random : Nat) : Option Channel :=
  draw (· < 0) (effectiveWeight targets) ↑(random % totalWeight targets) targets

end

def getRandomSatisfiedChannel (cache : Cache) (group model : String) (retry random : Nat) :
    Except SelectError (Option Channel) :=
  match cache.candidateIds group model with
  | [] => .ok none
  | [id] =>
    match cache.channelsIDM id with
    | none => .error (.channelMissing id)
    | some channel => .ok (some channel)
  | ids =>
    match cache.lookupAll ids with
    | .error e => .error e
    | .ok channels =>
      let priority := targetPriority (channels.map (·.priority)) retry
      match channels.filter fun channel => decide (channel.priority = priority) with
      | [] => .error (.noChannelFound group model priority)
      | targets =>
        match pickTarget targets random with
        | none => .error .channelNotFound
        | some channel => .ok (some channel)

def enabledAbilities (s : Store) (group model : String) : List Ability :=
  s.abilities.rows.filter fun ability =>
    decide (ability.group = group) && decide (ability.model = model) && ability.enabled

section

variable (abilities : List Ability)

def getChannelQuery (retry : Nat) : Except SelectError (List Ability) :=
  if retry = 0 then
    .ok (abilities.filter fun ability =>
      abilities.all fun other => decide (other.priority ≤ ability.priority))
  else
    match abilities with
    | [] => .error .consistencyBroken
    | abilities =>
      .ok (abilities.filter fun ability =>
        decide (ability.priority = targetPriority (abilities.map (·.priority)) retry))

def weightSum : Nat := total (fun ability => ability.weight + 10) abilities

def chooseAbility (random : Nat) : Option Ability :=
  draw (· ≤ 0) (fun ability => ability.weight + 10) ↑(random % weightSum abilities) abilities

end

/-- `ORDER BY weight DESC`; the order of equal rows is not fixed. -/
structure OrderByWeight where
  order : List Ability → List Ability
  perm : ∀ abilities, (order abilities).Perm abilities
  sorted : ∀ abilities, (order abilities).Pairwise fun a b => b.weight ≤ a.weight

def OrderByWeight.insertion : OrderByWeight where
  order := insertionSort fun a b => b.weight ≤ a.weight
  perm := perm_insertionSort _
  sorted := by
    intro abilities
    have : Std.Total fun a b : Ability => b.weight ≤ a.weight :=
      ⟨fun a b => Nat.le_total b.weight a.weight⟩
    have : IsTrans Ability fun a b => b.weight ≤ a.weight :=
      ⟨fun _ _ _ hab hbc => Nat.le_trans hbc hab⟩
    exact pairwise_insertionSort _ abilities

def getChannel (byWeight : OrderByWeight) (s : Store) (group model : String)
    (retry random : Nat) : Except SelectError (Option Channel) :=
  match getChannelQuery (enabledAbilities s group model) retry with
  | .error e => .error e
  | .ok query =>
    match byWeight.order query with
    | [] => .ok none
    | abilities =>
      match chooseAbility abilities random with
      | none => .error .recordNotFound
      | some ability =>
        match s.channels.get ability.channelId with
        | none => .error .recordNotFound
        | some channel => .ok (some channel)

/-- `priority` is the highest but `retry` of the distinct priorities, or the lowest where
there are fewer. -/
def IsTarget (priorities : List Int) (retry : Nat) (priority : Int) : Prop :=
  priority ∈ priorities ∧
    (priorities.toFinset.filter fun other => priority < other).card =
      min retry (priorities.toFinset.card - 1)

variable {priorities : List Int}

private theorem targetPriority_eq_get (h : priorities ≠ []) (retry : Nat) :
    ∃ hi, targetPriority priorities retry =
      (descending priorities).get ⟨min retry ((descending priorities).length - 1), hi⟩ := by
  have hpos : 0 < (descending priorities).length := length_pos_iff.mpr (descending_ne_nil h)
  refine ⟨by omega, ?_⟩
  rw [targetPriority, getD_eq_getElem _ _ (by omega), get_eq_getElem]

theorem isTarget_targetPriority (h : priorities ≠ []) (retry : Nat) :
    IsTarget priorities retry (targetPriority priorities retry) := by
  obtain ⟨hi, heq⟩ := targetPriority_eq_get h retry
  constructor
  · rw [heq]
    exact mem_descending.mp (get_mem _ _)
  · rw [heq, card_above_descending, length_descending]

theorem targetPriority_congr {priorities' : List Int}
    (h : ∀ priority, priority ∈ priorities ↔ priority ∈ priorities') (retry : Nat) :
    targetPriority priorities retry = targetPriority priorities' retry := by
  rw [targetPriority, targetPriority, descending_congr h]

theorem eq_targetPriority_zero_iff {priority : Int} (h : priority ∈ priorities) :
    priority = targetPriority priorities 0 ↔ ∀ other ∈ priorities, other ≤ priority := by
  have htarget := isTarget_targetPriority (ne_nil_of_mem h) 0
  have hhighest (other : Int) (hother : other ∈ priorities) :
      other ≤ targetPriority priorities 0 := by
    by_contra hlt
    have hempty := Finset.card_eq_zero.mp (htarget.2.trans (zero_min _))
    have habove : other ∈ priorities.toFinset.filter
        fun other => targetPriority priorities 0 < other := by
      rw [Finset.mem_filter, mem_toFinset]
      exact ⟨hother, Int.not_le.mp hlt⟩
    rw [hempty] at habove
    exact absurd habove (Finset.notMem_empty other)
  constructor
  · rintro rfl
    exact hhighest
  · intro hmax
    exact Int.le_antisymm (hhighest priority h) (hmax _ htarget.1)

theorem total_effectiveWeight (targets : List Channel) :
    total (effectiveWeight targets) targets = totalWeight targets := by
  have hsum : total (effectiveWeight targets) targets =
      sumWeight targets * smoothingFactor targets + targets.length * smoothingAdjustment targets :=
    total_mul_add Channel.weight _ _ targets
  rw [hsum]
  unfold totalWeight smoothingAdjustment smoothingFactor
  by_cases hzero : sumWeight targets = 0 <;> simp [hzero]

theorem smoothingFactor_pos (targets : List Channel) : 0 < smoothingFactor targets := by
  unfold smoothingFactor
  split
  · exact one_pos
  split
  · exact succ_pos _
  · exact one_pos

section

variable {targets : List Channel}

theorem totalWeight_pos (h : targets ≠ []) : 0 < totalWeight targets := by
  have hlength := length_pos_iff.mpr h
  unfold totalWeight
  refine Nat.mul_pos ?_ (smoothingFactor_pos targets)
  split <;> omega

theorem pickTarget_isSome (h : targets ≠ []) (random : Nat) :
    (pickTarget targets random).isSome := by
  refine draw_isSome _ ?_
  rw [total_effectiveWeight]
  exact mod_lt random (totalWeight_pos h)

theorem pickTarget_of_lt {random : Nat} (h : random < totalWeight targets) :
    pickTarget targets random = draw (· < 0) (effectiveWeight targets) random targets := by
  rw [pickTarget, mod_eq_of_lt h]

theorem sumWeight_eq_zero_iff :
    sumWeight targets = 0 ↔ ∀ channel ∈ targets, channel.weight = 0 := total_eq_zero_iff

private theorem effectiveWeight_eq {channel : Channel} (h : channel ∈ targets) :
    effectiveWeight targets channel =
      if ∀ other ∈ targets, other.weight = 0 then 100
      else channel.weight * smoothingFactor targets := by
  unfold effectiveWeight smoothingAdjustment
  split
  · next hzero =>
    have hall := sumWeight_eq_zero_iff.mp hzero
    rw [if_pos hall, hall channel h, Nat.zero_mul, Nat.zero_add]
  · next hsum => rw [if_neg fun hall => hsum (sumWeight_eq_zero_iff.mpr hall), add_zero]

end

def Cache.candidates (cache : Cache) (group model : String) : List Channel :=
  (cache.candidateIds group model).filterMap cache.channelsIDM

def Cache.Known (cache : Cache) (group model : String) : Prop :=
  ∀ id ∈ cache.candidateIds group model, (cache.channelsIDM id).isSome = true

def Cache.targets (cache : Cache) (group model : String) (retry : Nat) : List Channel :=
  (cache.candidates group model).filter fun channel =>
    decide (channel.priority =
      targetPriority ((cache.candidates group model).map (·.priority)) retry)

private theorem lookupAll_eq {cache : Cache} {ids : List Nat}
    (h : ∀ id ∈ ids, (cache.channelsIDM id).isSome = true) :
    cache.lookupAll ids = .ok (ids.filterMap cache.channelsIDM) := by
  induction ids with
  | nil => rfl
  | cons id ids ih =>
    rw [forall_mem_cons] at h
    obtain ⟨channel, hchannel⟩ := Option.isSome_iff_exists.mp h.1
    rw [Cache.lookupAll, hchannel, ih h.2, filterMap_cons_some hchannel]
    rfl

section Known

variable {cache : Cache} {group model : String}

theorem mem_targets {retry : Nat} {channel : Channel} :
    channel ∈ cache.targets group model retry ↔
      channel ∈ cache.candidates group model ∧ channel.priority =
        targetPriority ((cache.candidates group model).map (·.priority)) retry := by
  simp [Cache.targets]

private theorem nodup_targets (h : (cache.candidateIds group model).Nodup) (retry : Nat) :
    (cache.targets group model retry).Nodup := by
  refine List.Nodup.filter _ (h.filterMap ?_)
  intro id id' channel hid hid'
  rw [← cache.keyed hid, cache.keyed hid']

variable (hknown : cache.Known group model) (hne : cache.candidateIds group model ≠ [])
include hknown hne

theorem candidates_ne_nil : cache.candidates group model ≠ [] := by
  obtain ⟨id, hid⟩ := exists_mem_of_ne_nil _ hne
  obtain ⟨channel, hchannel⟩ := Option.isSome_iff_exists.mp (hknown id hid)
  exact ne_nil_of_mem (mem_filterMap.mpr ⟨id, hid, hchannel⟩)

theorem targets_ne_nil (retry : Nat) : cache.targets group model retry ≠ [] := by
  have hpriorities : (cache.candidates group model).map (·.priority) ≠ [] := by
    simpa using candidates_ne_nil hknown hne
  obtain ⟨channel, hchannel, hpriority⟩ := mem_map.mp (isTarget_targetPriority hpriorities retry).1
  exact ne_nil_of_mem (mem_targets.mpr ⟨hchannel, hpriority⟩)

theorem getRandomSatisfiedChannel_eq (retry random : Nat) :
    getRandomSatisfiedChannel cache group model retry random =
      .ok (pickTarget (cache.targets group model retry) random) := by
  have htargets := targets_ne_nil hknown hne retry
  obtain ⟨channel, hpick⟩ := Option.isSome_iff_exists.mp (pickTarget_isSome htargets random)
  rw [hpick, getRandomSatisfiedChannel]
  split
  · next hids => exact absurd hids hne
  · next id hids =>
    obtain ⟨only, honly⟩ := Option.isSome_iff_exists.mp (hknown id (by rw [hids]; simp))
    have hcandidates : cache.candidates group model = [only] := by
      rw [Cache.candidates, hids, filterMap_cons_some honly, filterMap_nil]
    have hmem := (mem_targets.mp (draw_mem hpick)).1
    rw [hcandidates, mem_singleton] at hmem
    rw [honly, hmem]
  · rw [lookupAll_eq hknown]
    dsimp only
    change (match cache.targets group model retry with
      | [] => _
      | targets => _) = _
    split
    · next hempty => exact absurd hempty htargets
    · rw [hpick]

end Known

def returnedId : Except SelectError (Option Channel) → Option Nat
  | .ok (some channel) => some channel.id
  | _ => none

variable {retry : Nat} {channel : Channel}

section

variable {cache : Cache} {group model : String}

variable (hne : cache.candidateIds group model ≠ [])
  (hnodup : (cache.candidateIds group model).Nodup) (hknown : cache.Known group model)
  (hchannel : channel ∈ cache.targets group model retry)
include hne hnodup hknown hchannel

theorem count_returned :
    count (fun r => returnedId (getRandomSatisfiedChannel cache group model retry r) =
        some channel.id) (totalWeight (cache.targets group model retry)) =
      if ∀ other ∈ cache.targets group model retry, other.weight = 0 then 100
      else channel.weight * smoothingFactor (cache.targets group model retry) := by
  classical
  rw [← effectiveWeight_eq hchannel]
  rw [← count_draw (effectiveWeight (cache.targets group model retry)) (nodup_targets hnodup retry)
    hchannel, total_effectiveWeight]
  refine count_congr fun r hr => ?_
  rw [getRandomSatisfiedChannel_eq hknown hne, pickTarget_of_lt hr]
  cases hdraw : draw _ _ (r : Int) (cache.targets group model retry) with
  | none => simp [returnedId]
  | some chosen =>
    rw [returnedId, Option.some.injEq, Option.some.injEq]
    refine ⟨fun hsame => ?_, congrArg Channel.id⟩
    obtain ⟨id, -, hid⟩ := mem_filterMap.mp (mem_targets.mp (draw_mem hdraw)).1
    obtain ⟨id', -, hid'⟩ := mem_filterMap.mp (mem_targets.mp hchannel).1
    rw [← cache.keyed hid, hsame, cache.keyed hid', hid'] at hid
    exact (Option.some.inj hid).symm

end

/--
Every draw returns a channel of the priority that the retry stands for, each of
them for as many draws as its effective weight.
-/
theorem weighted_choice_from_cache (cache : Cache) (group model : String) (retry : Nat)
    (hne : cache.candidateIds group model ≠ [])
    (hnodup : (cache.candidateIds group model).Nodup) (hknown : cache.Known group model) :
    ∃ priority, IsTarget ((cache.candidates group model).map (·.priority)) retry priority ∧
      let targets := (cache.candidates group model).filter fun channel =>
        decide (channel.priority = priority)
      0 < totalWeight targets ∧
      (∀ r < totalWeight targets, ∃ channel ∈ targets,
        getRandomSatisfiedChannel cache group model retry r = .ok (some channel)) ∧
      (∀ channel ∈ targets,
        count (fun r => returnedId (getRandomSatisfiedChannel cache group model retry r) =
            some channel.id) (totalWeight targets) =
          if ∀ other ∈ targets, other.weight = 0 then 100
          else channel.weight * smoothingFactor targets) ∧
      ∀ channel ∈ targets, channel.weight = 0 →
        (∃ r < totalWeight targets,
          getRandomSatisfiedChannel cache group model retry r = .ok (some channel)) →
        ∀ other ∈ targets, other.weight = 0 := by
  have hpriorities : (cache.candidates group model).map (·.priority) ≠ [] := by
    simpa using candidates_ne_nil hknown hne
  have htargets := targets_ne_nil hknown hne retry
  refine ⟨_, isTarget_targetPriority hpriorities retry, totalWeight_pos htargets, fun r _ => ?_,
    fun channel hchannel => count_returned hne hnodup hknown hchannel, ?_⟩
  · obtain ⟨channel, hchannel⟩ := Option.isSome_iff_exists.mp (pickTarget_isSome htargets r)
    refine ⟨channel, draw_mem hchannel, ?_⟩
    rw [getRandomSatisfiedChannel_eq hknown hne, hchannel]
  · rintro channel hchannel hweight ⟨r, hr, hreturned⟩
    by_contra hsome
    have hcount := count_returned hne hnodup hknown hchannel
    have hsome : ¬ ∀ other ∈ cache.targets group model retry, other.weight = 0 := hsome
    rw [if_neg hsome, hweight, Nat.zero_mul, Nat.count_iff_forall_not] at hcount
    refine hcount r hr ?_
    rw [hreturned]
    rfl

def twoCached : Cache where
  group2model2channels := fun group =>
    if group = "default" then some fun model => if model = "gpt-4o" then [1, 2] else [] else none
  channelsIDM := fun id =>
    if id = 1 then some ⟨1, "", 1, "gpt-4o", "default", 10, 5, none, {}, {}⟩
    else if id = 2 then some ⟨2, "", 1, "gpt-4o", "default", 10, 0, none, {}, {}⟩
    else none
  keyed := by
    intro id channel h
    split at h
    · next hid =>
      cases h
      exact hid.symm
    · split at h
      · next hid =>
        cases h
        exact hid.symm
      · cases h

theorem weighted_choice_from_cache_two :
    twoCached.candidateIds "default" "gpt-4o" = [1, 2] ∧
      ∃ priority, IsTarget [10, 10] 0 priority ∧
        ∀ r < totalWeight ((twoCached.candidates "default" "gpt-4o").filter fun channel =>
            decide (channel.priority = priority)),
          ∃ channel, getRandomSatisfiedChannel twoCached "default" "gpt-4o" 0 r =
            .ok (some channel) := by
  obtain ⟨priority, htarget, -, hreturned, -⟩ :=
    weighted_choice_from_cache twoCached "default" "gpt-4o" 0 (by decide) (by decide)
      (forall_mem_cons.mpr ⟨rfl, forall_mem_singleton.mpr rfl⟩)
  refine ⟨by decide, priority, htarget, fun r hr => ?_⟩
  obtain ⟨channel, -, hchannel⟩ := hreturned r hr
  exact ⟨channel, hchannel⟩

/-- With more than one ability the first has a draw too many and the last one too few. -/
theorem weighted_choice_from_database_iff (abilities : List Ability) (hne : abilities ≠ [])
    (hkeys : (abilities.map Ability.key).Nodup) :
    ((∀ ability ∈ abilities,
        count (fun r => chooseAbility abilities r = some ability) (weightSum abilities) =
          ability.weight + 10) ∧
      ∀ r < weightSum abilities, (chooseAbility abilities r).isSome = true) ↔
    abilities.length = 1 := by
  have hsome : ∀ r < weightSum abilities, (chooseAbility abilities r).isSome = true := by
    intro r hr
    rw [chooseAbility, mod_eq_of_lt hr]
    exact draw_le_isSome _ hne hr
  have hcount (ability : Ability) :
      count (fun r => chooseAbility abilities r = some ability) (weightSum abilities) =
        count (fun r : Nat => draw (· ≤ 0) (fun ability : Ability => ability.weight + 10) r
          abilities = some ability) (weightSum abilities) := by
    refine count_congr fun r hr => ?_
    rw [chooseAbility, mod_eq_of_lt hr]
  simp only [hcount]
  rw [and_iff_left hsome]
  exact forall_count_draw_le_iff _ hne hkeys.of_map fun _ _ => succ_pos _

theorem weighted_choice_from_database_single :
    count (fun r => chooseAbility [⟨"default", "gpt-4o", 1, true, 0, 3, none⟩] r =
        some ⟨"default", "gpt-4o", 1, true, 0, 3, none⟩)
      (weightSum [⟨"default", "gpt-4o", 1, true, 0, 3, none⟩]) = 3 + 10 :=
  ((weighted_choice_from_database_iff [⟨"default", "gpt-4o", 1, true, 0, 3, none⟩] (by decide)
    (by decide)).mpr rfl).1 _ (mem_singleton_self _)

/-- Two abilities of weight zero share twenty draws as eleven and nine. -/
theorem weighted_choice_from_database_two :
    ¬ ∀ ability ∈ [(⟨"default", "gpt-4o", 1, true, 0, 0, none⟩ : Ability),
        ⟨"default", "gpt-4o", 2, true, 0, 0, none⟩],
      count (fun r => chooseAbility [⟨"default", "gpt-4o", 1, true, 0, 0, none⟩,
        ⟨"default", "gpt-4o", 2, true, 0, 0, none⟩] r = some ability)
        (weightSum [⟨"default", "gpt-4o", 1, true, 0, 0, none⟩,
          ⟨"default", "gpt-4o", 2, true, 0, 0, none⟩]) = ability.weight + 10 := by
  decide

end NewApi.Routing
