import NewApi.Relay.Retry
import NewApi.Routing.Paths

/-!
# The retry loop over the cache and the database

The retry loop sees the id, the priority and the weight of a channel.  With the
lists of the cache it makes the choice of the cache, and with the abilities of
the database that of the database.
-/

namespace NewApi.Retry

open Foundation List

theorem sumOf_eq_total (weight : Channel → Nat) (channels : List Channel) :
    sumOf weight channels = total weight channels := by
  have hfold : ∀ sum, channels.foldl (fun sum channel => sum + weight channel) sum =
      sum + total weight channels := by
    induction channels with
    | nil => exact fun _ => rfl
    | cons channel channels ih =>
      intro sum
      rw [foldl_cons, ih, total, Nat.add_assoc]
  exact (hfold 0).trans (Nat.zero_add _)

section

variable {α : Type} (shown : α → Channel)

theorem total_map (weight : Channel → Nat) (items : List α) :
    total weight (items.map shown) = total (fun item => weight (shown item)) items := by
  induction items with
  | nil => rfl
  | cons item items ih => rw [map_cons, total, total, ih]

theorem pick_map (stop : Int → Bool) (weight : Channel → Nat) (random : Int) (items : List α) :
    pick stop weight random (items.map shown) =
      (draw stop (fun item => weight (shown item)) random items).map shown := by
  induction items generalizing random with
  | nil => rfl
  | cons item items ih =>
    simp only [map_cons, pick, draw, ih]
    split <;> rfl

theorem targetPriority_map (items : List α) (retry : Nat) :
    targetPriority (items.map shown) retry =
      Routing.targetPriority (items.map fun item => (shown item).priority) retry := by
  have hsame : sortedUniquePriorities (items.map shown) =
      descending (items.map fun item => (shown item).priority) := by
    rw [sortedUniquePriorities, map_map]
    rfl
  simp only [targetPriority, hsame]
  rfl

end

/-! ## The cache -/

def shown (channel : Routing.Channel) : Channel :=
  ⟨channel.id, channel.priority, channel.weight⟩

private theorem pickCached_shown (targets : List Routing.Channel) (random : Nat) :
    pickCached (targets.map shown) random = (Routing.pickTarget targets random).map shown := by
  have hsum : sumOf (·.weight) (targets.map shown) = Routing.sumWeight targets := by
    rw [sumOf_eq_total, total_map]
    rfl
  unfold pickCached Routing.pickTarget
  simp only [hsum, length_map, pick_map]
  unfold Routing.effectiveWeight Routing.totalWeight Routing.smoothingFactor
    Routing.smoothingAdjustment
  by_cases hzero : Routing.sumWeight targets = 0
  · simp [hzero, shown]
  · simp [hzero, shown]

section

variable {set : Setting} {cache : Routing.Cache}

/-- The lists of the setting are those of the cache, and no id of them is unknown to it. -/
structure Lists (set : Setting) (cache : Routing.Cache) : Prop where
  enabled : set.memoryCacheEnabled = true
  format : set.formatMatchingModelName = Routing.formatMatchingModelName
  known : ∀ group model, ∀ id ∈ cache.channelIds group model,
    (cache.channelsIDM id).isSome = true
  channels : ∀ group model, set.channels group model =
    ((cache.channelIds group model).filterMap cache.channelsIDM).map shown

theorem Lists.known_candidates (h : Lists set cache) (group model : String) :
    cache.Known group model := by
  intro id hid
  rw [Routing.Cache.candidateIds] at hid
  split at hid
  · exact h.known _ _ id hid
  · exact h.known _ _ id hid

theorem Lists.channels_eq_nil_iff (h : Lists set cache) (group model : String) :
    set.channels group model = [] ↔ cache.channelIds group model = [] := by
  rw [h.channels, map_eq_nil_iff, filterMap_eq_nil_iff]
  constructor
  · intro hnone
    rw [eq_nil_iff_forall_not_mem]
    intro id hid
    have hsome := h.known group model id hid
    rw [hnone id hid] at hsome
    cases hsome
  · intro hempty id hid
    rw [hempty] at hid
    cases hid

theorem Lists.candidates_eq (h : Lists set cache) (group model : String) :
    candidates set group model = (cache.candidates group model).map shown := by
  unfold candidates Routing.Cache.candidates Routing.Cache.candidateIds
  simp only [h.enabled, true_and, h.channels_eq_nil_iff, h.format]
  split
  · exact h.channels _ _
  · exact h.channels _ _

/-- The retry loop is given the channel that the cache selects. -/
theorem getRandomSatisfiedChannel_routed (h : Lists set cache) (group model : String)
    (retry random : Nat) :
    getRandomSatisfiedChannel set group model retry random =
      (Routing.getRandomSatisfiedChannel cache group model retry random).toOption.join.map
        shown := by
  have hknown := h.known_candidates group model
  simp only [getRandomSatisfiedChannel, h.enabled, if_true, h.candidates_eq]
  by_cases hids : cache.candidateIds group model = []
  · simp [Routing.Cache.candidates, Routing.getRandomSatisfiedChannel, hids, Except.toOption]
  rw [Routing.getRandomSatisfiedChannel_eq hknown hids]
  change _ = (Routing.pickTarget (cache.targets group model retry) random).map shown
  split
  · next hempty =>
    exact absurd (map_eq_nil_iff.mp hempty) (Routing.candidates_ne_nil hknown hids)
  · next only hsingle =>
    -- a single candidate is returned at once, and is what the draw among the targets gives
    obtain ⟨channel, hchannels, rfl⟩ := map_eq_singleton_iff.mp hsingle
    obtain ⟨picked, hpick⟩ := Option.isSome_iff_exists.mp
      (Routing.pickTarget_isSome (Routing.targets_ne_nil hknown hids retry) random)
    have hmem := (Routing.mem_targets.mp (draw_mem hpick)).1
    rw [hchannels, mem_singleton] at hmem
    rw [hpick, hmem, Option.map_some]
  · rw [← pickCached_shown, targetPriority_map, filter_map]
    rfl

end

/-! ## The database -/

def listed (ability : Routing.Ability) : Channel :=
  ⟨ability.channelId, ability.priority, ability.weight⟩

private theorem getChannelQuery_listed {s : Routing.Store} {group model : String}
    (hne : Routing.enabledAbilities s group model ≠ []) (retry : Nat) :
    getChannelQuery ((Routing.enabledAbilities s group model).map listed) retry =
      (Routing.queried Routing.OrderByWeight.insertion s group model retry).map listed := by
  have hquery := Routing.getChannelQuery_eq hne retry
  refine Eq.trans ?_ (map_insertionSort _ (fun a b => a.weight ≥ b.weight) listed _
    fun _ _ _ _ => Iff.rfl).symm
  refine congrArg (insertionSort fun a b : Channel => a.weight ≥ b.weight) ?_
  by_cases hretry : retry = 0
  · unfold Routing.getChannelQuery at hquery
    rw [if_pos hretry] at hquery
    rw [if_pos hretry, ← Except.ok.inj hquery, filter_map]
    simp only [all_map]
    rfl
  · rw [if_neg hretry, targetPriority_map, filter_map]
    rfl

theorem getRandomSatisfiedChannel_stored {set : Setting} {s : Routing.Store}
    {group model : String} (hcache : set.memoryCacheEnabled = false)
    (hchannels : set.channels group model = (Routing.enabledAbilities s group model).map listed)
    (hstored : ∀ ability ∈ Routing.enabledAbilities s group model,
      (s.channels.get ability.channelId).isSome = true) (retry random : Nat) :
    (getRandomSatisfiedChannel set group model retry random).map (·.id) =
      Routing.returnedId
        (Routing.getChannel Routing.OrderByWeight.insertion s group model retry random) := by
  have hchosen : getRandomSatisfiedChannel set group model retry random =
      dbGetChannel ((Routing.enabledAbilities s group model).map listed) retry random := by
    simp [getRandomSatisfiedChannel, candidates, hcache, hchannels]
  rw [hchosen]
  by_cases hne : Routing.enabledAbilities s group model = []
  · rw [Routing.returnedId_getChannel_of_nil _ hne, hne]
    simp [dbGetChannel, getChannelQuery, pick]
  · rw [Routing.returnedId_getChannel hne hstored, dbGetChannel]
    simp only [getChannelQuery_listed hne, sumOf_eq_total, total_map, pick_map, Option.map_map]
    rfl

end NewApi.Retry
