import NewApi.Routing.KeyStatus
import NewApi.Routing.Selection

/-!
# A disabled channel is not selected

One call of `UpdateChannelStatus` that disables a channel runs beside any number
of rebuilds of the cache.  A rebuild reads the database and replaces the cache
later; the call looks at the cached channel, edits the cache and then the
database.  After the call the channel is in none of the lists, provided that it
was at most once in each and that no rebuild brings back what it read before.
-/

namespace NewApi.Routing

open Foundation List
open Channels (JsonArrays)

/-- How far the call has come; `inspected` carries the status that it will write to the cache. -/
inductive Phase where
  | idle
  | inspected (edit : Option Int)
  | edited
  | returned
  deriving DecidableEq

structure Snapshot where
  channels : List Channel
  abilities : List Ability

structure World where
  store : Store
  cache : Cache
  rebuilds : List Snapshot
  phase : Phase

inductive Event where
  /-- A rebuild reads the database. -/
  | read
  /-- The `i`-th rebuild under way replaces the cache. -/
  | swap (i : Nat)
  /-- The call takes its next step. -/
  | proceed

section

variable (json : JsonArrays) (sorting : Sorting) (call : StatusCall)

def proceed (w : World) : World :=
  match w.phase with
  | .idle =>
    match inspectCached json w.cache call with
    | none => { w with phase := .returned }
    | some (cache, edit) => { w with cache := cache, phase := .inspected edit }
  | .inspected edit =>
    { w with cache := editCached w.cache call.channelId edit, phase := .edited }
  | .edited =>
    { w with store := (w.store.updateChannelStatus json call).1, phase := .returned }
  | .returned => w

def World.step (w : World) : Event → World
  | .read =>
    { w with rebuilds := w.rebuilds ++ [⟨w.store.channels.rows, w.store.abilities.rows⟩] }
  | .swap i =>
    match w.rebuilds[i]? with
    | none => w
    | some snapshot =>
      { w with
        cache := (initChannelCache sorting snapshot.channels snapshot.abilities
          w.cache).getD w.cache
        rebuilds := w.rebuilds.eraseIdx i }
  | .proceed => proceed json call w

end

def World.start (s : Store) (cache : Cache) : World where
  store := s
  cache := cache
  rebuilds := []
  phase := .idle

def Off (id : Nat) (channels : List Channel) : Prop :=
  ∀ channel ∈ channels, channel.id = id → channel.status ≠ channelStatusEnabled

def NoRepeats (id : Nat) (channels : List Channel) : Prop :=
  ∀ channel ∈ channels, channel.id = id → channel.groups.Nodup ∧ channel.modelNames.Nodup

def Unlisted (id : Nat) (cache : Cache) : Prop := ∀ group model, id ∉ cache.channelIds group model

def ListedOnce (id : Nat) (cache : Cache) : Prop :=
  ∀ group model, (cache.channelIds group model).count id ≤ 1

theorem count_writtenTo (writes : List (String × String × Nat)) (group model : String) (id : Nat) :
    (writtenTo writes group model).count id = writes.count (group, model, id) := by
  induction writes with
  | nil => rfl
  | cons entry writes ih =>
    obtain ⟨group', model', id'⟩ := entry
    unfold writtenTo at ih ⊢
    rw [filter_cons, count_cons]
    by_cases hlist : group' = group ∧ model' = model
    · obtain ⟨rfl, rfl⟩ := hlist
      simp only [decide_true, and_self, if_true, map_cons, count_cons, ih]
      simp
    · have hne : (group', model', id') ≠ (group, model, id) := by
        rintro h
        obtain ⟨rfl, rfl, -⟩ := Prod.mk.inj h |>.imp_right Prod.mk.inj
        exact hlist ⟨rfl, rfl⟩
      rw [if_neg (by simpa using hlist), ih, if_neg (by simpa using hne), Nat.add_zero]

def channelEntries (channel : Channel) : List (String × String × Nat) :=
  channel.groups.flatMap fun group => channel.modelNames.map fun model => (group, model, channel.id)

theorem entries_cons (channel : Channel) (channels : List Channel) :
    entries (channel :: channels) =
      (if channel.status = channelStatusEnabled then channelEntries channel else []) ++
        entries channels := by
  unfold entries
  rw [filter_cons]
  by_cases hstatus : channel.status = channelStatusEnabled
  · simp [hstatus, channelEntries]
  · simp [hstatus]

theorem id_of_mem_channelEntries {channel : Channel} {group model : String} {id : Nat}
    (h : (group, model, id) ∈ channelEntries channel) : channel.id = id := by
  simp only [channelEntries, mem_flatMap, mem_map, Prod.mk.injEq] at h
  obtain ⟨-, -, -, -, -, -, hid⟩ := h
  exact hid

private theorem nodup_channelEntries {channel : Channel} (hgroups : channel.groups.Nodup)
    (hmodels : channel.modelNames.Nodup) : (channelEntries channel).Nodup := by
  unfold channelEntries
  rw [nodup_flatMap]
  refine ⟨fun group _ => hmodels.map fun model model' h => ?_, ?_⟩
  · simpa using h
  · refine hgroups.imp fun {group group'} hne => ?_
    intro entry hentry hentry'
    obtain ⟨model, -, rfl⟩ := mem_map.mp hentry
    obtain ⟨model', -, heq⟩ := mem_map.mp hentry'
    exact hne (congrArg Prod.fst heq).symm

private theorem count_entries_le_one {channels : List Channel}
    (hnodup : (channels.map Channel.id).Nodup) {id : Nat} (h : NoRepeats id channels)
    (group model : String) : (entries channels).count (group, model, id) ≤ 1 := by
  induction channels with
  | nil => exact Nat.zero_le 1
  | cons channel channels ih =>
    rw [map_cons, nodup_cons] at hnodup
    have hrest := ih hnodup.2 fun other hother => h other (mem_cons_of_mem channel hother)
    rw [entries_cons, count_append]
    by_cases hid : channel.id = id
    · -- no later channel has the id
      have hlater : (entries channels).count (group, model, id) = 0 := by
        refine count_eq_zero_of_not_mem fun hentry => ?_
        obtain ⟨other, hother, -, -, -, hother'⟩ := mem_entries.mp hentry
        exact hnodup.1 (mem_map.mpr ⟨other, hother, hother'.trans hid.symm⟩)
      obtain ⟨hgroups, hmodels⟩ := h channel mem_cons_self hid
      rw [hlater, Nat.add_zero]
      split
      · exact nodup_iff_count_le_one.mp (nodup_channelEntries hgroups hmodels) _
      · exact Nat.zero_le 1
    · have hfirst : (if channel.status = channelStatusEnabled then channelEntries channel
          else []).count (group, model, id) = 0 := by
        refine count_eq_zero_of_not_mem fun hentry => ?_
        split at hentry
        · exact hid (id_of_mem_channelEntries hentry)
        · cases hentry
      rw [hfirst, Nat.zero_add]
      exact hrest

section Rebuilt

variable {sorting : Sorting} {channels : List Channel} {abilities : List Ability}
  {old cache : Cache} (hinit : initChannelCache sorting channels abilities old = some cache)
  {id : Nat}

include hinit

theorem listedOnce_of_init (hnodup : (channels.map Channel.id).Nodup)
    (h : NoRepeats id channels) : ListedOnce id cache := by
  intro group model
  rw [(channelIds_perm hinit group model).count_eq, count_writtenTo]
  exact count_entries_le_one hnodup h group model

theorem unlisted_of_init (h : Off id channels) : Unlisted id cache := by
  intro group model hid
  obtain ⟨channel, hchannel, hstatus, -, -, heq⟩ := (mem_channelIds hinit).mp hid
  exact h channel hchannel heq hstatus

end Rebuilt

variable {status : Int} {group model : String} {retry random : Nat} {channel : Channel}

theorem channelIds_cacheUpdateChannelStatus (cache : Cache) (id : Nat)
    (h : status ≠ channelStatusEnabled) (group model : String) :
    (cacheUpdateChannelStatus cache id status).channelIds group model =
      (cache.channelIds group model).erase id := by
  simp only [Cache.channelIds, cacheUpdateChannelStatus, if_pos h]
  cases cache.group2model2channels group with
  | none | some => rfl

section

variable {cache : Cache} {id : Nat} {s : Store}

theorem unlisted_of_edit (h : ListedOnce id cache) (hstatus : status ≠ channelStatusEnabled) :
    Unlisted id (cacheUpdateChannelStatus cache id status) := by
  intro group model
  rw [channelIds_cacheUpdateChannelStatus cache id hstatus, ← count_eq_zero, count_erase_self]
  have honce := h group model
  omega

private theorem mem_of_lookupAll {ids : List Nat} {channels : List Channel}
    (hall : cache.lookupAll ids = .ok channels) {other : Channel} (hother : other ∈ channels) :
    other.id ∈ ids := by
  induction ids generalizing channels with
  | nil =>
    obtain rfl : [] = channels := by simpa [Cache.lookupAll] using hall
    cases hother
  | cons id ids ih =>
    unfold Cache.lookupAll at hall
    split at hall
    · cases hall
    next first hfirst =>
    cases hrest : cache.lookupAll ids with
    | error =>
      rw [hrest] at hall
      cases hall
    | ok rest =>
      rw [hrest] at hall
      obtain rfl : first :: rest = channels := by simpa [Except.map] using hall
      obtain rfl | hlater := mem_cons.mp hother
      · exact mem_cons.mpr (.inl (cache.keyed hfirst))
      · exact mem_cons_of_mem id (ih hrest hlater)

private theorem mem_candidateIds_of_returned
    (h : getRandomSatisfiedChannel cache group model retry random = .ok (some channel)) :
    channel.id ∈ cache.candidateIds group model := by
  unfold getRandomSatisfiedChannel at h
  split at h
  · cases h
  · next id hids =>
    split at h
    · cases h
    next only honly =>
    obtain rfl : only = channel := by simpa using h
    rw [hids, cache.keyed honly]
    exact mem_singleton_self id
  · split at h
    · cases h
    next channels hchannels =>
    dsimp only at h
    split at h
    · cases h
    split at h
    · cases h
    next chosen hchosen =>
    obtain rfl : chosen = channel := by simpa using h
    refine mem_of_lookupAll hchannels ?_
    exact (mem_filter.mp (draw_mem hchosen)).1

/-- While the call has not edited the cache: the database is as it was, and so is what the
rebuilds have read of it. -/
structure Before (s : Store) (id : Nat) (w : World) : Prop where
  store : w.store = s
  rebuilds : ∀ snapshot ∈ w.rebuilds, snapshot.channels = s.channels.rows
  once : ListedOnce id w.cache
  off : Off id s.channels.rows → Unlisted id w.cache

def CachedAs (s : Store) (id : Nat) (cache : Cache) : Prop :=
  match cache.channelsIDM id with
  | none => s.channels.get id = none
  | some cached => ∃ stored, s.channels.get id = some stored ∧ SameKeys cached stored

def OnCourse (s : Store) (id : Nat) (w : World) : Prop :=
  match w.phase with
  | .idle => Before s id w ∧ CachedAs s id w.cache
  | .inspected (some status) => Before s id w ∧ status ≠ channelStatusEnabled
  | .inspected none => Before s id w ∧ Off id s.channels.rows
  | .edited => Unlisted id w.cache
  | .returned => Unlisted id w.cache

/-- The call disables the channel: its status afterwards is not enabled.  For a channel with
several keys this is so when the last enabled key is disabled. -/
def Disables (json : JsonArrays) (s : Store) (call : StatusCall) : Prop :=
  ∀ stored, s.channels.get call.channelId = some stored →
    (stored.withStatus json call).status ≠ channelStatusEnabled

/-- A rebuild that replaces the cache after the call has edited it read the channel as
disabled. -/
def Fresh (id : Nat) (w : World) : Event → Prop
  | .swap i => w.phase = .edited ∨ w.phase = .returned →
      ∀ snapshot, w.rebuilds[i]? = some snapshot → Off id snapshot.channels
  | _ => True

theorem off_of_get (hget : s.channels.get id = some channel)
    (hstatus : channel.status ≠ channelStatusEnabled) : Off id s.channels.rows := by
  obtain ⟨hchannel, hid⟩ := s.channels.get_eq_some_iff.mp hget
  intro other hother hid'
  rwa [s.channels.eq_of_key_eq hother hchannel (hid'.trans hid.symm)]

private theorem off_of_get_none (hget : s.channels.get id = none) : Off id s.channels.rows := by
  intro channel hchannel hid
  rw [s.channels.get_eq_some_iff.mpr ⟨hchannel, hid⟩] at hget
  cases hget

end

section Course

variable {json : JsonArrays} {sorting : Sorting} {s : Store} {call : StatusCall}

theorem cachedAs_of_init {abilities : List Ability} {old cache : Cache}
    (hinit : initChannelCache sorting s.channels.rows abilities old = some cache) (id : Nat) :
    CachedAs s id cache := by
  have hcached := channelsIDM_of_init hinit id
  change _ = (s.channels.get id).map _ at hcached
  unfold CachedAs
  rw [hcached]
  cases hget : s.channels.get id with
  | none => exact rfl
  | some channel =>
    obtain ⟨index, heq⟩ := keepPollingIndex_eq (old.channelsIDM id) channel
    refine ⟨channel, rfl, ?_⟩
    rw [heq]
    exact ⟨rfl, rfl, rfl, rfl⟩

variable {w : World}

section

variable {id i : Nat}

theorem Before.read (h : Before s id w) : Before s id (w.step json sorting call .read) := by
  refine ⟨h.store, fun snapshot hsnapshot => ?_, h.once, h.off⟩
  obtain hold | hnew := mem_append.mp hsnapshot
  · exact h.rebuilds snapshot hold
  · obtain rfl := mem_singleton.mp hnew
    rw [h.store]

theorem Before.swap (h : Before s id w) (hnames : NoRepeats id s.channels.rows) (i : Nat) :
    Before s id (w.step json sorting call (.swap i)) ∧
      (CachedAs s id w.cache → CachedAs s id (w.step json sorting call (.swap i)).cache) := by
  unfold World.step
  dsimp only
  split
  · exact ⟨h, fun hcached => hcached⟩
  next snapshot hsnapshot =>
  have hrows := h.rebuilds snapshot (mem_of_getElem? hsnapshot)
  have hrest : ∀ other ∈ w.rebuilds.eraseIdx i, other.channels = s.channels.rows :=
    fun other hother => h.rebuilds other (mem_of_mem_eraseIdx hother)
  rw [hrows]
  cases hinit : initChannelCache sorting s.channels.rows snapshot.abilities w.cache with
  | none => exact ⟨⟨h.store, hrest, h.once, h.off⟩, fun hcached => hcached⟩
  | some =>
    refine ⟨⟨h.store, hrest, ?_, ?_⟩, fun _ => cachedAs_of_init hinit id⟩
    · exact listedOnce_of_init hinit s.channels.nodup hnames
    · exact unlisted_of_init hinit

theorem Unlisted.swap (h : Unlisted id w.cache)
    (hfresh : ∀ snapshot, w.rebuilds[i]? = some snapshot → Off id snapshot.channels) :
    Unlisted id (w.step json sorting call (.swap i)).cache := by
  unfold World.step
  dsimp only
  split
  · exact h
  next snapshot hsnapshot =>
  cases hinit : initChannelCache sorting snapshot.channels snapshot.abilities w.cache with
  | none => exact h
  | some => exact unlisted_of_init hinit (hfresh snapshot hsnapshot)

theorem OnCourse.inspect (hphase : w.phase = .idle) (h : Before s call.channelId w)
    (hcached : CachedAs s call.channelId w.cache) (hstatus : call.status ≠ channelStatusEnabled)
    (hdisables : Disables json s call) :
    OnCourse s call.channelId (w.step json sorting call .proceed) := by
  unfold World.step proceed
  rw [hphase]
  dsimp only
  unfold inspectCached
  unfold CachedAs at hcached
  cases hchannel : w.cache.channelsIDM call.channelId with
  | none =>
    rw [hchannel] at hcached
    exact h.off (off_of_get_none hcached)
  | some cached =>
    rw [hchannel] at hcached
    obtain ⟨stored, hstored, hsame⟩ := hcached
    dsimp only
    by_cases hmulti : cached.channelInfo.isMultiKey = true
    · have hedited := hsame.handlerMultiKeyUpdate json call
      have hoff : (handlerMultiKeyUpdate json cached call).status ≠ channelStatusEnabled := by
        have hdisabled := hdisables stored hstored
        rw [Channel.withStatus, if_pos (hsame.isMultiKey ▸ hmulti)] at hdisabled
        rw [hedited.status]
        exact hdisabled
      rw [if_pos hmulti]
      by_cases hchanged : cached.status ≠ (handlerMultiKeyUpdate json cached call).status
      · rw [if_pos hchanged]
        exact ⟨{ h with }, hoff⟩
      · rw [if_neg hchanged]
        refine ⟨{ h with }, off_of_get hstored ?_⟩
        rw [← hsame.status, not_not.mp hchanged]
        exact hoff
    · rw [if_neg hmulti]
      by_cases hequal : cached.status = call.status
      · rw [if_pos hequal]
        refine h.off (off_of_get hstored ?_)
        rw [← hsame.status, hequal]
        exact hstatus
      · rw [if_neg hequal]
        exact ⟨{ h with }, hstatus⟩

theorem OnCourse.of_phase {w' : World} (h : OnCourse s id w) (hphase : w'.phase = w.phase)
    (hbefore : Before s id w → Before s id w')
    (hcached : Before s id w → CachedAs s id w.cache → CachedAs s id w'.cache)
    (hunlisted : w.phase = .edited ∨ w.phase = .returned →
      Unlisted id w.cache → Unlisted id w'.cache) : OnCourse s id w' := by
  unfold OnCourse at h ⊢
  rw [hphase]
  cases hw : w.phase with
  | idle =>
    rw [hw] at h
    exact ⟨hbefore h.1, hcached h.1 h.2⟩
  | inspected edit =>
    rw [hw] at h
    cases edit with
    | none | some => exact ⟨hbefore h.1, h.2⟩
  | edited =>
    rw [hw] at h
    exact hunlisted (.inl hw) h
  | returned =>
    rw [hw] at h
    exact hunlisted (.inr hw) h

theorem OnCourse.read (h : OnCourse s id w) : OnCourse s id (w.step json sorting call .read) :=
  h.of_phase rfl Before.read (fun _ hcached => hcached) fun _ hunlisted => hunlisted

theorem OnCourse.swap (h : OnCourse s id w) (hnames : NoRepeats id s.channels.rows)
    (hfresh : Fresh id w (.swap i)) : OnCourse s id (w.step json sorting call (.swap i)) := by
  have hphase : (w.step json sorting call (.swap i)).phase = w.phase := by
    unfold World.step
    dsimp only
    split <;> rfl
  refine h.of_phase hphase ?_ ?_ ?_
  · exact fun hbefore => (hbefore.swap hnames i).1
  · exact fun hbefore => (hbefore.swap hnames i).2
  · exact fun hedited hunlisted => hunlisted.swap (hfresh hedited)

end

theorem OnCourse.proceed (h : OnCourse s call.channelId w)
    (hstatus : call.status ≠ channelStatusEnabled) (hdisables : Disables json s call) :
    OnCourse s call.channelId (w.step json sorting call .proceed) := by
  unfold OnCourse at h
  cases hw : w.phase <;> rw [hw] at h
  case idle => exact .inspect hw h.1 h.2 hstatus hdisables
  all_goals
    unfold World.step Routing.proceed OnCourse
    rw [hw]
  case inspected edit =>
    cases edit with
    | none => exact h.1.off h.2
    | some => exact unlisted_of_edit h.1.once h.2
  case edited => exact h
  case returned =>
    dsimp only
    rw [hw]
    exact h

end Course

/--
Once the call that disables a channel has returned, the channel is selected for no
group, model and retry: in every run whose later rebuilds have read the channel as
disabled, for a channel that writes no group and no model twice.
-/
theorem disabled_channel_not_selected (json : JsonArrays) (sorting : Sorting) (s : Store)
    (old cache : Cache)
    (hinit : initChannelCache sorting s.channels.rows s.abilities.rows old = some cache)
    (call : StatusCall) (hstatus : call.status ≠ channelStatusEnabled)
    (hdisables : Disables json s call) (hnames : NoRepeats call.channelId s.channels.rows)
    (events : List Event)
    (hfresh : Admits (World.step json sorting call) (Fresh call.channelId)
      (World.start s cache) events) :
    ∀ before after, events = before ++ after →
      (run (World.step json sorting call) (World.start s cache) before).phase = .returned →
      ∀ group model retry random channel,
        getRandomSatisfiedChannel
            (run (World.step json sorting call) (World.start s cache) before).cache
            group model retry random = .ok (some channel) →
          channel.id ≠ call.channelId := by
  rintro before after rfl hreturned group model retry random channel hselected
  obtain ⟨hbefore, -⟩ := (admits_append _ _ _ _ _).mp hfresh
  have hstart : OnCourse s call.channelId (World.start s cache) := by
    refine ⟨⟨rfl, fun snapshot hsnapshot => ?_, ?_, ?_⟩, cachedAs_of_init hinit _⟩
    · cases hsnapshot
    · exact listedOnce_of_init hinit s.channels.nodup hnames
    · exact unlisted_of_init hinit
  have hcourse := hbefore.invariant (OnCourse s call.channelId) (fun w e hw he => by
      cases e with
      | read => exact hw.read
      | swap => exact hw.swap hnames he
      | proceed => exact hw.proceed hstatus hdisables)
    hstart
  unfold OnCourse at hcourse
  rw [hreturned] at hcourse
  intro hid
  have hmem := mem_candidateIds_of_returned hselected
  rw [hid] at hmem
  unfold Cache.candidateIds at hmem
  split at hmem <;> exact hcourse _ _ hmem

/-! A database with one enabled channel, and a call that disables it. -/

def oneRow (models : String) : Store where
  channels := ⟨[⟨1, "", 1, models, "default", 0, 0, none, {}, {}⟩], nodup_singleton _⟩
  abilities := ⟨[⟨"default", "gpt-4o", 1, true, 0, 0, none⟩], nodup_singleton _⟩

def oneRowWorld (models : String) : World :=
  World.start (oneRow models) ((initChannelCache Sorting.insertion (oneRow models).channels.rows
    (oneRow models).abilities.rows Cache.empty).getD Cache.empty)

def oneRowStep : World → Event → World :=
  World.step ⟨fun _ => none, fun _ => none⟩ Sorting.insertion
    { channelId := 1, usingKey := "", status := 3 }

theorem disabled_channel_not_selected_after_rebuild :
    (run oneRowStep (oneRowWorld "gpt-4o")
        [.proceed, .proceed, .proceed, .read, .swap 0]).phase = .returned ∧
      ∀ group model retry random channel,
        getRandomSatisfiedChannel (run oneRowStep (oneRowWorld "gpt-4o")
            [.proceed, .proceed, .proceed, .read, .swap 0]).cache group model retry random =
          .ok (some channel) → channel.id ≠ 1 := by
  refine ⟨rfl, disabled_channel_not_selected ⟨fun _ => none, fun _ => none⟩ Sorting.insertion
    (oneRow "gpt-4o") Cache.empty _ rfl { channelId := 1, usingKey := "", status := 3 }
    (by decide) ?_ ?_
    [.proceed, .proceed, .proceed, .read, .swap 0]
    ⟨trivial, trivial, trivial, trivial, ?_, trivial⟩ _ [] rfl rfl⟩
  · intro stored hstored
    cases hstored
    decide
  · intro channel hchannel _
    obtain rfl := mem_singleton.mp hchannel
    decide
  · intro _ snapshot hsnapshot channel hchannel _
    cases hsnapshot
    obtain rfl := mem_singleton.mp hchannel
    decide

/-- A model that is written twice stays listed, and a rebuild that read the database before
the call brings the channel back. -/
theorem disabled_channel_selected :
    ((run oneRowStep (oneRowWorld "gpt-4o,gpt-4o") [.proceed, .proceed, .proceed]).phase =
        .returned ∧
      returnedId (getRandomSatisfiedChannel (run oneRowStep (oneRowWorld "gpt-4o,gpt-4o")
        [.proceed, .proceed, .proceed]).cache "default" "gpt-4o" 0 0) = some 1) ∧
    ((run oneRowStep (oneRowWorld "gpt-4o")
        [.read, .proceed, .proceed, .proceed, .swap 0]).phase = .returned ∧
      returnedId (getRandomSatisfiedChannel (run oneRowStep (oneRowWorld "gpt-4o")
        [.read, .proceed, .proceed, .proceed, .swap 0]).cache "default" "gpt-4o" 0 0) =
          some 1) := by
  decide

/-! ## The cache without a rebuild -/

def withStatusAt (id : Nat) (status : Int) (channel : Channel) : Channel :=
  if channel.id = id then { channel with status := status } else channel

private theorem count_entries_withStatusAt {id other : Nat} {status : Int} (hne : other ≠ id)
    (hstatus : status ≠ channelStatusEnabled) (channels : List Channel) (group model : String) :
    (entries (channels.map (withStatusAt id status))).count (group, model, other) =
      (entries channels).count (group, model, other) := by
  induction channels with
  | nil => rfl
  | cons channel channels ih =>
    rw [map_cons, entries_cons, entries_cons, count_append, count_append, ih, withStatusAt]
    by_cases hid : channel.id = id
    · have hfirst : (channelEntries channel).count (group, model, other) = 0 :=
        count_eq_zero_of_not_mem fun hentry => hne (hid ▸ (id_of_mem_channelEntries hentry).symm)
      rw [if_pos hid, if_neg hstatus]
      split
      · rw [hfirst, count_nil]
      · rfl
    · rw [if_neg hid]

/-- To take a disabled channel out of the cached lists gives what a rebuild from the database
with the new status gives. -/
theorem cached_disable_as_rebuilt (sorting : Sorting) (channels : List Channel)
    (abilities abilities' : List Ability) (old old' cache cache' : Cache) (id : Nat) (status : Int)
    (hnodup : (channels.map Channel.id).Nodup) (hrepeats : NoRepeats id channels)
    (hstatus : status ≠ channelStatusEnabled)
    (hinit : initChannelCache sorting channels abilities old = some cache)
    (hagain : initChannelCache sorting (channels.map (withStatusAt id status)) abilities' old' =
      some cache') (group model : String) :
    ((cacheUpdateChannelStatus cache id status).channelIds group model).Perm
      (cache'.channelIds group model) := by
  rw [channelIds_cacheUpdateChannelStatus cache id hstatus, perm_iff_count]
  intro other
  by_cases hother : other = id
  · subst hother
    have hoff : Off other (channels.map (withStatusAt other status)) := by
      intro channel hchannel hid
      obtain ⟨row, -, rfl⟩ := mem_map.mp hchannel
      unfold withStatusAt at hid ⊢
      split at hid
      · next hrow => rwa [if_pos hrow]
      · next hrow => exact absurd hid hrow
    have honce := listedOnce_of_init hinit hnodup hrepeats group model
    rw [count_erase_self, count_eq_zero_of_not_mem (unlisted_of_init hagain hoff group model)]
    omega
  · rw [count_erase_of_ne hother, (channelIds_perm hinit group model).count_eq,
      (channelIds_perm hagain group model).count_eq, count_writtenTo, count_writtenTo,
      count_entries_withStatusAt hother hstatus]

def twoChannels : List Channel :=
  [⟨1, "", 1, "gpt-4o", "default", 0, 0, none, {}, {}⟩,
    ⟨2, "", 1, "gpt-4o", "default", 0, 0, none, {}, {}⟩]

def cacheOf (channels : List Channel) : Cache :=
  (initChannelCache Sorting.insertion channels (oneRow "gpt-4o").abilities.rows
    Cache.empty).getD Cache.empty

/-- The second channel stays. -/
theorem cached_disable_as_rebuilt_two :
    (cacheOf twoChannels).channelIds "default" "gpt-4o" = [1, 2] ∧
      (cacheUpdateChannelStatus (cacheOf twoChannels) 1 3).channelIds "default" "gpt-4o" = [2] ∧
      ((cacheUpdateChannelStatus (cacheOf twoChannels) 1 3).channelIds "default" "gpt-4o").Perm
        ((cacheOf (twoChannels.map (withStatusAt 1 3))).channelIds "default" "gpt-4o") := by
  refine ⟨by decide, by decide, cached_disable_as_rebuilt Sorting.insertion twoChannels
    (oneRow "gpt-4o").abilities.rows (oneRow "gpt-4o").abilities.rows Cache.empty Cache.empty
    _ _ 1 3 (by decide) ?_ (by decide) rfl rfl _ _⟩
  intro channel hchannel hid
  rcases mem_cons.mp hchannel with rfl | hsecond
  · decide
  · obtain rfl := mem_singleton.mp hsecond
    cases hid

end NewApi.Routing
