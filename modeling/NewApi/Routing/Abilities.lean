import NewApi.Routing.Channel

/-!
# The abilities follow the channels

Every operation on channels keeps the abilities up to date on its own: by
creating them anew, by updating the same columns, or by deleting them.  The
abilities mirror the channels in every state of a run exactly when no operation
of the run is one of those that miss something.
-/

namespace NewApi.Routing

open Foundation List Store
open Channels (JsonArrays countedKeys)

/-! ## Operations -/

/-- A `Channel` as the caller fills it in; what is not set is a zero value or a nil pointer. -/
structure ChannelData where
  key : String := ""
  status : Int := 0
  models : String := ""
  group : String := ""
  priority : Option Int := none
  weight : Option Nat := none
  tag : Option String := none
  channelInfo : Option ChannelInfo := none

def ChannelData.create (data : ChannelData) (id : Nat) : Channel where
  id := id
  key := data.key
  status := if data.status = 0 then channelStatusEnabled else data.status
  models := data.models
  group := if data.group = "" then "default" else data.group
  priority := data.priority.getD 0
  weight := data.weight.getD 0
  tag := data.tag
  channelInfo := data.channelInfo.getD {}

def ChannelData.asGiven (data : ChannelData) (id : Nat) : Channel where
  id := id
  key := data.key
  status := data.status
  models := data.models
  group := data.group
  priority := data.priority.getD 0
  weight := data.weight.getD 0
  tag := data.tag
  channelInfo := data.channelInfo.getD {}

def Channel.updates (channel : Channel) (data : ChannelData) : Channel :=
  { channel with
    key := if data.key = "" then channel.key else data.key
    status := if data.status = 0 then channel.status else data.status
    models := if data.models = "" then channel.models else data.models
    group := if data.group = "" then channel.group else data.group
    priority := data.priority.getD channel.priority
    weight := data.weight.getD channel.weight
    tag := data.tag.or channel.tag
    channelInfo := data.channelInfo.getD channel.channelInfo }

structure TagEdit where
  newTag : Option String := none
  models : Option String := none
  group : Option String := none
  priority : Option Int := none
  weight : Option Nat := none

inductive Operation where
  | insert (id : Nat) (data : ChannelData)
  | batchInsertChannels (channels : List (Nat × ChannelData))
  | update (id : Nat) (data : ChannelData)
  | updateChannelStatus (call : StatusCall)
  | enableChannelByTag (tag : String)
  | disableChannelByTag (tag : String)
  | editChannelByTag (tag : String) (edit : TagEdit)
  | delete (id : Nat)
  | batchDeleteChannels (ids : List Nat)
  | deleteChannelByStatus (status : Int)
  | deleteDisabledChannel

/-- The id is the one that the database assigns; an id that is taken is an error. -/
def Store.insert (s : Store) (id : Nat) (data : ChannelData) : Option Store :=
  if h : ∀ channel ∈ s.channels.rows, channel.id ≠ id then
    let channel := data.create id
    some
      { channels := s.channels.insert channel h
        abilities := channel.addAbilities s.abilities }
  else none

/-- One transaction; the chunks of fifty make no difference to what it commits. -/
def Store.batchInsertChannels (s : Store) (channels : List (Nat × ChannelData)) : Option Store :=
  channels.foldlM (fun s entry => s.insert entry.1 entry.2) s

section

variable (json : JsonArrays)

def ChannelData.countKeys (data : ChannelData) (stored : Option Channel) : ChannelData :=
  match data.channelInfo with
  | none => data
  | some info =>
    if info.isMultiKey = true then
      let keyStr := if data.key ≠ "" then data.key else (stored.map (·.key)).getD ""
      let size := (countedKeys json keyStr).length
      { data with
        channelInfo := some
          { info with
            multiKeySize := size
            multiKeyStatusList := fun i =>
              if i ≥ size then none else info.multiKeyStatusList i } }
    else data

section

variable (s : Store)

def Store.update (id : Nat) (data : ChannelData) : Store :=
  let data := data.countKeys json (s.channels.get id)
  match s.channels.get id with
  | none => { s with abilities := (data.asGiven id).updateAbilities s.abilities }
  | some channel =>
    let channel' := channel.updates data
    { channels := s.channels.save channel'
      abilities := channel'.updateAbilities s.abilities }

section

variable (tag : String)

def Store.setStatusByTag (status : Int) : Store where
  channels := s.channels.update
    (fun channel => if channel.tag = some tag then { channel with status := status } else channel)
    (by
      intro channel
      split <;> rfl)
  abilities := s.abilities.update
    (fun ability =>
      if ability.tag = some tag then
        { ability with enabled := decide (status = channelStatusEnabled) }
      else ability)
    (by
      intro ability
      split <;> rfl)

section

variable (edit : TagEdit)

def TagEdit.updateData (tag : String) : ChannelData where
  tag := if edit.newTag = some tag then none else edit.newTag
  models := edit.models.getD ""
  group := edit.group.getD ""
  priority := edit.priority
  weight := edit.weight

def TagEdit.shouldReCreateAbilities : Bool :=
  decide (edit.models.getD "" ≠ "") || decide (edit.group.getD "" ≠ "")

def Channel.editByTag (channel : Channel) : Channel :=
  if channel.tag = some tag then channel.updates (edit.updateData tag) else channel

def Ability.editByTag (ability : Ability) : Ability :=
  if ability.tag = some tag then
    { ability with
      tag := edit.newTag.or ability.tag
      priority := edit.priority.getD ability.priority
      weight := if edit.weight.getD 0 = 0 then ability.weight else edit.weight.getD 0 }
  else ability

def Store.editChannels : Table Channel Channel.id :=
  s.channels.update (Channel.editByTag tag edit) (by
    intro channel
    unfold Channel.editByTag
    split <;> rfl)

def Store.taggedAfter : List Channel :=
  (s.editChannels tag edit).rows.filter fun channel =>
    decide (channel.tag = some (edit.newTag.getD tag))

def Store.editChannelByTag : Store where
  channels := s.editChannels tag edit
  abilities :=
    if edit.shouldReCreateAbilities = true then
      (s.taggedAfter tag edit).foldl (fun abilities channel => channel.updateAbilities abilities)
        s.abilities
    else s.abilities.update (Ability.editByTag tag edit) (by
      intro ability
      unfold Ability.editByTag
      split <;> rfl)

end

end

def Store.deleteChannels (ids : List Nat) : Store where
  channels := s.channels.deleteWhere fun channel => decide (channel.id ∈ ids)
  abilities := s.abilities.deleteWhere fun ability => decide (ability.channelId ∈ ids)

def Store.deleteChannelsWhere (p : Channel → Bool) : Store :=
  { s with channels := s.channels.deleteWhere p }

def isDisabled (channel : Channel) : Bool :=
  decide (channel.status = channelStatusAutoDisabled) ||
    decide (channel.status = channelStatusManuallyDisabled)

def step : Operation → Store
  | .insert id data => (s.insert id data).getD s
  | .batchInsertChannels channels => (s.batchInsertChannels channels).getD s
  | .update id data => s.update json id data
  | .updateChannelStatus call => (s.updateChannelStatus json call).1
  | .enableChannelByTag tag => s.setStatusByTag tag channelStatusEnabled
  | .disableChannelByTag tag => s.setStatusByTag tag channelStatusManuallyDisabled
  | .editChannelByTag tag edit => s.editChannelByTag tag edit
  | .delete id => s.deleteChannels [id]
  | .batchDeleteChannels ids => s.deleteChannels ids
  | .deleteChannelByStatus status =>
    s.deleteChannelsWhere fun channel => decide (channel.status = status)
  | .deleteDisabledChannel => s.deleteChannelsWhere isDisabled

end

end

/-! ## The specification -/

def Channel.Offers (channel : Channel) (row : Ability) : Prop :=
  ∃ group ∈ channel.groups, ∃ model ∈ channel.modelNames, row = channel.ability group model

def Mirrors (s : Store) : Prop :=
  ∀ row, row ∈ s.abilities.rows ↔ ∃ channel ∈ s.channels.rows, channel.Offers row

/-- No two pairs of a group and a model are remembered under the same text. -/
def Channel.Separable (channel : Channel) : Prop :=
  ∀ p ∈ channel.pairs, ∀ q ∈ channel.pairs, abilitySetKey p = abilitySetKey q → p = q

def Regular (json : JsonArrays) (s : Store) : Operation → Prop
  | .insert id data =>
    (∀ channel ∈ s.channels.rows, channel.id ≠ id) → (data.create id).Separable
  | .batchInsertChannels channels =>
    (s.batchInsertChannels channels).isSome → ∀ entry ∈ channels, (entry.2.create entry.1).Separable
  | .update id data =>
    ∃ channel, s.channels.get id = some channel ∧
      (channel.updates (data.countKeys json (some channel))).Separable
  | .editChannelByTag tag edit =>
    if edit.shouldReCreateAbilities = true then
      ∀ channel ∈ s.taggedAfter tag edit, channel.Separable
    else
      edit.weight = some 0 →
        ∀ channel ∈ s.channels.rows, channel.tag = some tag → channel.weight = 0
  | .deleteChannelByStatus status => ∀ channel ∈ s.channels.rows, channel.status ≠ status
  | .deleteDisabledChannel => ∀ channel ∈ s.channels.rows, isDisabled channel = false
  | _ => True

/-! ## The rows that are written -/

theorem Channel.mem_pairs {channel : Channel} {pair : String × String} :
    pair ∈ channel.pairs ↔ pair.1 ∈ channel.groups ∧ pair.2 ∈ channel.modelNames := by
  obtain ⟨group, model⟩ := pair
  simp [Channel.pairs, and_comm]

variable {row : Ability} {abilities : Table Ability Ability.key} {keys : List String} {tag : String}

theorem Channel.offers_iff {channel : Channel} :
    channel.Offers row ↔ ∃ pair ∈ channel.pairs, channel.ability pair.1 pair.2 = row := by
  constructor
  · rintro ⟨group, hgroup, model, hmodel, rfl⟩
    exact ⟨(group, model), Channel.mem_pairs.mpr ⟨hgroup, hmodel⟩, rfl⟩
  · rintro ⟨pair, hpair, rfl⟩
    obtain ⟨hgroup, hmodel⟩ := Channel.mem_pairs.mp hpair
    exact ⟨pair.1, hgroup, pair.2, hmodel, rfl⟩

theorem Channel.Offers.channelId {channel : Channel} (h : channel.Offers row) :
    row.channelId = channel.id := by
  obtain ⟨group, -, model, -, rfl⟩ := h
  rfl

theorem split_ne_nil (c : Char) (s : String) : split c s ≠ [] := by
  simp [split, List.splitOn, splitOnP_ne_nil]

variable (channel : Channel)

theorem Channel.exists_offers : ∃ row, channel.Offers row := by
  obtain ⟨group, hgroup⟩ := exists_mem_of_ne_nil _ (split_ne_nil ',' channel.group)
  obtain ⟨model, hmodel⟩ := exists_mem_of_ne_nil _ (split_ne_nil ',' channel.models)
  exact ⟨channel.ability group model, group, hgroup, model, hmodel, rfl⟩

theorem Channel.mem_newAbilities {channel : Channel} :
    row ∈ channel.newAbilities ↔
      ∃ pair ∈ distinctBy abilitySetKey [] channel.pairs, channel.ability pair.1 pair.2 = row := by
  simp [Channel.newAbilities, mem_map]

theorem Channel.offers_of_mem_newAbilities {channel : Channel} (h : row ∈ channel.newAbilities) :
    channel.Offers row := by
  obtain ⟨pair, hpair, rfl⟩ := Channel.mem_newAbilities.mp h
  exact Channel.offers_iff.mpr ⟨pair, (mem_of_mem_distinctBy hpair).1, rfl⟩

theorem Channel.exists_newAbility : ∃ row, row ∈ channel.newAbilities := by
  obtain ⟨row, hrow⟩ := channel.exists_offers
  obtain ⟨pair, hpair, rfl⟩ := Channel.offers_iff.mp hrow
  obtain ⟨pair', hpair', -⟩ : ∃ pair' ∈ distinctBy abilitySetKey [] channel.pairs,
      abilitySetKey pair' = abilitySetKey pair := exists_mem_distinctBy hpair not_mem_nil
  exact ⟨_, Channel.mem_newAbilities.mpr ⟨pair', hpair', rfl⟩⟩

theorem Channel.forall_mem_newAbilities_iff :
    (∀ row, channel.Offers row → row ∈ channel.newAbilities) ↔ channel.Separable := by
  unfold Channel.Separable
  rw [← forall_mem_distinctBy_iff]
  constructor
  · intro h pair hpair
    obtain ⟨pair', hpair', heq⟩ := Channel.mem_newAbilities.mp
      (h _ (Channel.offers_iff.mpr ⟨pair, hpair, rfl⟩))
    have hgroup : pair'.1 = pair.1 := congrArg Ability.group heq
    have hmodel : pair'.2 = pair.2 := congrArg Ability.model heq
    rwa [← Prod.ext hgroup hmodel]
  · intro h row hrow
    obtain ⟨pair, hpair, rfl⟩ := Channel.offers_iff.mp hrow
    exact Channel.mem_newAbilities.mpr ⟨pair, h pair hpair, rfl⟩

theorem Channel.mem_addAbilities {channel : Channel}
    (hfree : ∀ row ∈ abilities.rows, row.channelId ≠ channel.id) :
    row ∈ (channel.addAbilities abilities).rows ↔
      row ∈ abilities.rows ∨ row ∈ channel.newAbilities := by
  refine abilities.mem_foldl_addMissing ?_ ?_
  · intro added hadded old hold hkey
    have hid : old.channelId = added.channelId :=
      congrArg (fun key : String × String × Nat => key.2.2) hkey
    rw [(Channel.offers_of_mem_newAbilities hadded).channelId] at hid
    exact absurd hid (hfree old hold)
  · intro added hadded other hother hkey
    obtain ⟨group, -, model, -, rfl⟩ := Channel.offers_of_mem_newAbilities hother
    obtain ⟨group', -, model', -, rfl⟩ := Channel.offers_of_mem_newAbilities hadded
    obtain ⟨rfl, rfl, -⟩ : group = group' ∧ model = model' ∧ channel.id = channel.id := by
      simpa [Ability.key, Channel.ability] using hkey
    rfl

theorem Channel.mem_updateAbilities {channel : Channel} :
    row ∈ (channel.updateAbilities abilities).rows ↔
      row ∈ abilities.rows ∧ row.channelId ≠ channel.id ∨ row ∈ channel.newAbilities := by
  have hdeleted (row : Ability) : row ∈ (deleteAbilities channel.id abilities).rows ↔
      row ∈ abilities.rows ∧ row.channelId ≠ channel.id := by
    rw [deleteAbilities, Table.mem_deleteWhere, decide_eq_false_iff_not]
  rw [Channel.updateAbilities, Channel.mem_addAbilities, hdeleted]
  exact fun row hrow => ((hdeleted row).mp hrow).2

/-! ## Three ways to keep the mirror -/

open Routing.Channel (mem_addAbilities mem_updateAbilities offers_of_mem_newAbilities)

variable {s s' : Store} {anew : List Channel} {edit : TagEdit}

theorem mirrors_recreated_iff (hs : Mirrors s)
    (hchannels : ∀ channel, channel ∈ s'.channels.rows ↔
      channel ∈ anew ∨ channel ∈ s.channels.rows ∧ channel.id ∉ anew.map Channel.id)
    (habilities : ∀ row, row ∈ s'.abilities.rows ↔
      row ∈ s.abilities.rows ∧ row.channelId ∉ anew.map Channel.id ∨
        ∃ channel ∈ anew, row ∈ channel.newAbilities) :
    Mirrors s' ↔ ∀ channel ∈ anew, channel.Separable := by
  constructor
  · intro h channel hchannel
    refine channel.forall_mem_newAbilities_iff.mp ?_
    intro row hrow
    have hstored := (h row).mpr ⟨channel, (hchannels channel).mpr (.inl hchannel), hrow⟩
    obtain ⟨-, hother⟩ | ⟨channel', hchannel', hnew⟩ := (habilities row).mp hstored
    · rw [hrow.channelId] at hother
      exact absurd (mem_map_of_mem hchannel) hother
    -- the row was created for a channel with the same id
    have hid : channel'.id = channel.id :=
      (offers_of_mem_newAbilities hnew).channelId.symm.trans hrow.channelId
    have hsame := s'.channels.eq_of_key_eq ((hchannels channel').mpr (.inl hchannel'))
      ((hchannels channel).mpr (.inl hchannel)) hid
    rwa [hsame] at hnew
  · intro h row
    rw [habilities]
    constructor
    · rintro (⟨hrow, hother⟩ | ⟨channel, hchannel, hnew⟩)
      · obtain ⟨channel, hchannel, hoffers⟩ := (hs row).mp hrow
        rw [hoffers.channelId] at hother
        exact ⟨channel, (hchannels channel).mpr (.inr ⟨hchannel, hother⟩), hoffers⟩
      · exact ⟨channel, (hchannels channel).mpr (.inl hchannel), offers_of_mem_newAbilities hnew⟩
    · rintro ⟨channel, hchannel, hoffers⟩
      obtain hnew | ⟨hold, hother⟩ := (hchannels channel).mp hchannel
      · exact .inr ⟨channel, hnew, channel.forall_mem_newAbilities_iff.mpr (h channel hnew) row
          hoffers⟩
      · refine .inl ⟨(hs row).mpr ⟨channel, hold, hoffers⟩, ?_⟩
        rwa [hoffers.channelId]

variable {onAbility : Ability → Ability} {i : Nat}

theorem mirrors_of_updated (hs : Mirrors s) {onChannel : Channel → Channel}
    (hchannels : ∀ channel, channel ∈ s'.channels.rows ↔
      ∃ old ∈ s.channels.rows, onChannel old = channel)
    (habilities : ∀ row, row ∈ s'.abilities.rows ↔ ∃ old ∈ s.abilities.rows, onAbility old = row)
    (hnames : ∀ channel ∈ s.channels.rows,
      (onChannel channel).group = channel.group ∧ (onChannel channel).models = channel.models)
    (hcolumns : ∀ channel ∈ s.channels.rows, ∀ group model,
      onAbility (channel.ability group model) = (onChannel channel).ability group model) :
    Mirrors s' := by
  intro row
  rw [habilities]
  constructor
  · rintro ⟨old, hold, rfl⟩
    obtain ⟨channel, hchannel, group, hgroup, model, hmodel, rfl⟩ := (hs old).mp hold
    obtain ⟨hgroups, hmodels⟩ := hnames channel hchannel
    refine ⟨onChannel channel, (hchannels _).mpr ⟨channel, hchannel, rfl⟩, group, ?_, model, ?_,
      hcolumns channel hchannel group model⟩
    · rwa [Channel.groups, hgroups]
    · rwa [Channel.modelNames, hmodels]
  · rintro ⟨channel', hchannel', group, hgroup, model, hmodel, rfl⟩
    obtain ⟨channel, hchannel, rfl⟩ := (hchannels channel').mp hchannel'
    obtain ⟨hgroups, hmodels⟩ := hnames channel hchannel
    rw [Channel.groups, hgroups] at hgroup
    rw [Channel.modelNames, hmodels] at hmodel
    exact ⟨channel.ability group model, (hs _).mpr ⟨channel, hchannel, group, hgroup, model, hmodel,
      rfl⟩, hcolumns channel hchannel group model⟩

theorem mirrors_deleteChannels (hs : Mirrors s) (ids : List Nat) :
    Mirrors (s.deleteChannels ids) := by
  intro row
  simp only [deleteChannels, Table.mem_deleteWhere, decide_eq_false_iff_not]
  rw [hs row]
  constructor
  · rintro ⟨⟨channel, hchannel, hoffers⟩, hother⟩
    rw [hoffers.channelId] at hother
    exact ⟨channel, ⟨hchannel, hother⟩, hoffers⟩
  · rintro ⟨channel, ⟨hchannel, hother⟩, hoffers⟩
    refine ⟨⟨channel, hchannel, hoffers⟩, ?_⟩
    rwa [hoffers.channelId]

theorem mirrors_deleteChannelsWhere_iff (hs : Mirrors s) (p : Channel → Bool) :
    Mirrors (s.deleteChannelsWhere p) ↔ ∀ channel ∈ s.channels.rows, p channel = false := by
  constructor
  · intro h channel hchannel
    obtain ⟨row, hrow⟩ := channel.exists_offers
    obtain ⟨channel', hchannel', hrow'⟩ := (h row).mp ((hs row).mpr ⟨channel, hchannel, hrow⟩)
    obtain ⟨hstored, hkept⟩ := s.channels.mem_deleteWhere.mp hchannel'
    have hid : channel'.id = channel.id := hrow'.channelId.symm.trans hrow.channelId
    rwa [s.channels.eq_of_key_eq hstored hchannel hid] at hkept
  · intro h row
    refine (hs row).trans (exists_congr fun channel => and_congr_left fun _ => ?_)
    refine Iff.trans ?_ s.channels.mem_deleteWhere.symm
    exact ⟨fun hchannel => ⟨hchannel, h channel hchannel⟩, And.left⟩

/-! ## Inserts -/

def created (channels : List (Nat × ChannelData)) : List Channel :=
  channels.map fun entry => entry.2.create entry.1

def Owned (s : Store) : Prop :=
  ∀ row ∈ s.abilities.rows, ∃ channel ∈ s.channels.rows, channel.id = row.channelId

theorem Mirrors.owned (hs : Mirrors s) : Owned s := by
  intro row hrow
  obtain ⟨channel, hchannel, hoffers⟩ := (hs row).mp hrow
  exact ⟨channel, hchannel, hoffers.channelId.symm⟩

structure Inserted (s : Store) (anew : List Channel) (s' : Store) : Prop where
  channels : ∀ channel, channel ∈ s'.channels.rows ↔ channel ∈ s.channels.rows ∨ channel ∈ anew
  abilities : ∀ row, row ∈ s'.abilities.rows ↔
    row ∈ s.abilities.rows ∨ ∃ channel ∈ anew, row ∈ channel.newAbilities
  fresh : ∀ channel ∈ s.channels.rows, channel.id ∉ anew.map Channel.id

theorem inserted_of_insert {id : Nat} {data : ChannelData} (hs : Owned s)
    (h : s.insert id data = some s') : Inserted s [data.create id] s' := by
  unfold Store.insert at h
  split at h
  · next hfresh =>
    cases h
    refine ⟨fun channel => ?_, fun row => ?_, fun channel hchannel => ?_⟩
    · simp [Table.insert]
    · rw [mem_addAbilities]
      · simp
      · intro row hrow
        obtain ⟨channel, hchannel, hid⟩ := hs row hrow
        rw [← hid]
        exact hfresh channel hchannel
    · have hother : channel.id ≠ (data.create id).id := hfresh channel hchannel
      simpa using hother
  · cases h

theorem Inserted.owned (h : Inserted s anew s') (hs : Owned s) : Owned s' := by
  intro row hrow
  obtain hold | ⟨channel, hchannel, hnew⟩ := (h.abilities row).mp hrow
  · obtain ⟨channel, hchannel, hid⟩ := hs row hold
    exact ⟨channel, (h.channels channel).mpr (.inl hchannel), hid⟩
  · exact ⟨channel, (h.channels channel).mpr (.inr hchannel),
      (offers_of_mem_newAbilities hnew).channelId.symm⟩

theorem Inserted.trans {s'' : Store} {first second : List Channel} (h : Inserted s first s')
    (h' : Inserted s' second s'') : Inserted s (first ++ second) s'' := by
  refine ⟨fun channel => ?_, fun row => ?_, fun channel hchannel => ?_⟩
  · rw [h'.channels, h.channels, mem_append, or_assoc]
  · rw [h'.abilities, h.abilities, or_assoc]
    simp [mem_append, or_and_right, exists_or]
  · have hlater := h'.fresh channel ((h.channels channel).mpr (.inl hchannel))
    rw [map_append, mem_append, not_or]
    exact ⟨h.fresh channel hchannel, hlater⟩

private theorem inserted_of_batchInsertChannels {channels : List (Nat × ChannelData)} (hs : Owned s)
    (h : s.batchInsertChannels channels = some s') : Inserted s (created channels) s' := by
  induction channels generalizing s with
  | nil =>
    obtain rfl : s = s' := by simpa [batchInsertChannels] using h
    exact ⟨by simp [created], by simp [created], by simp [created]⟩
  | cons entry channels ih =>
    simp only [batchInsertChannels, foldlM_cons, Option.bind_eq_bind, Option.bind_eq_some_iff] at h
    obtain ⟨s₁, hfirst, hrest⟩ := h
    have hinserted := inserted_of_insert hs hfirst
    exact hinserted.trans (ih (hinserted.owned hs) hrest)

theorem Inserted.mirrors_iff (h : Inserted s anew s') (hs : Mirrors s) :
    Mirrors s' ↔ ∀ channel ∈ anew, channel.Separable := by
  refine mirrors_recreated_iff hs (fun channel => ?_) (fun row => ?_)
  · rw [h.channels, or_comm]
    exact or_congr_right ⟨fun hold => ⟨hold, h.fresh channel hold⟩, And.left⟩
  · rw [h.abilities]
    refine or_congr_left ⟨fun hold => ⟨hold, ?_⟩, And.left⟩
    obtain ⟨channel, hchannel, hid⟩ := hs.owned row hold
    rw [← hid]
    exact h.fresh channel hchannel

theorem mirrors_insert_iff (hs : Mirrors s) (id : Nat) (data : ChannelData) :
    Mirrors ((s.insert id data).getD s) ↔
      ((∀ channel ∈ s.channels.rows, channel.id ≠ id) → (data.create id).Separable) := by
  cases h : s.insert id data with
  | none =>
    refine iff_of_true hs fun hfresh => ?_
    rw [Store.insert, dif_pos hfresh] at h
    cases h
  | some =>
    have hfresh : ∀ channel ∈ s.channels.rows, channel.id ≠ id := by
      by_contra htaken
      rw [Store.insert, dif_neg htaken] at h
      cases h
    rw [Option.getD_some, (inserted_of_insert hs.owned h).mirrors_iff hs, forall_mem_singleton]
    exact ⟨fun hseparable _ => hseparable, fun hseparable => hseparable hfresh⟩

/-! ## Updates -/

variable (json : JsonArrays)

private theorem mirrors_update_iff (hs : Mirrors s) (id : Nat) (data : ChannelData) :
    Mirrors (s.update json id data) ↔
      ∃ channel, s.channels.get id = some channel ∧
        (channel.updates (data.countKeys json (some channel))).Separable := by
  unfold update
  cases hget : s.channels.get id with
  | none =>
    -- the rows of the channel that was given have no channel
    refine iff_of_false (fun h => ?_) (by simp)
    obtain ⟨row, hrow⟩ := ((data.countKeys json none).asGiven id).exists_newAbility
    obtain ⟨channel, hchannel, hoffers⟩ := (h row).mp (mem_updateAbilities.mpr (.inr hrow))
    have hid : channel.id = id :=
      hoffers.channelId.symm.trans (offers_of_mem_newAbilities hrow).channelId
    rw [s.channels.get_eq_some_iff.mpr ⟨hchannel, hid⟩] at hget
    cases hget
  | some channel =>
    obtain ⟨hchannel, hid⟩ := s.channels.get_eq_some_iff.mp hget
    dsimp only
    generalize hnew : channel.updates (data.countKeys json (some channel)) = channel'
    have hid' : channel'.id = id := by
      rw [← hnew]
      exact hid
    have hiff : Mirrors ⟨s.channels.save channel', channel'.updateAbilities s.abilities⟩ ↔
        ∀ other ∈ [channel'], other.Separable := by
      refine mirrors_recreated_iff hs (fun other => ?_) (fun row => ?_)
      · rw [s.channels.mem_save_iff (hid'.symm ▸ hget)]
        simp
      · rw [mem_updateAbilities]
        simp
    rw [hiff]
    simp [hnew]

theorem Channel.withStatus_eq (call : StatusCall) :
    ∃ status otherInfo channelInfo, channel.withStatus json call =
      { channel with status := status, otherInfo := otherInfo, channelInfo := channelInfo } := by
  unfold Channel.withStatus handlerMultiKeyUpdate
  dsimp only
  split
  · split
    · exact ⟨_, _, _, rfl⟩
    split
    · split <;> exact ⟨_, _, _, rfl⟩
    · split
      · exact ⟨_, _, _, rfl⟩
      split <;> exact ⟨_, _, _, rfl⟩
  · exact ⟨_, _, _, rfl⟩

private theorem hasEnabledMultiKey_of_none {statusList : Nat → Option Int} (hi : i < keys.length)
    (h : statusList i = none) : hasEnabledMultiKey keys statusList = true := by
  simp only [hasEnabledMultiKey, any_eq_true, mem_range]
  exact ⟨i, hi, by simp [h]⟩

theorem lt_length_of_idxOf? {key : String} (h : keys.idxOf? key = some i) : i < keys.length := by
  rw [List.idxOf?, findIdx?_eq_some_iff_getElem] at h
  exact h.1

theorem Channel.withStatus_status (call : StatusCall) :
    (channel.withStatus json call).status = channel.status ∧ channel.channelInfo.isMultiKey = true ∨
      ((channel.withStatus json call).status = channelStatusEnabled ↔
        call.status = channelStatusEnabled) := by
  unfold Channel.withStatus
  split
  · next hmulti =>
    unfold handlerMultiKeyUpdate
    dsimp only
    split
    · exact .inr Iff.rfl
    split
    · split
      · exact .inl ⟨rfl, hmulti⟩
      · exact .inr Iff.rfl
    next keyIndex hindex =>
    split
    · next hnone =>
      have hauto : channelStatusAutoDisabled ≠ channelStatusEnabled := by decide
      refine .inr (iff_of_false hauto fun henabled => ?_)
      -- a key that is enabled has no entry in the list
      have hremoved :
          (channel.channelInfo.setKeyStatus keyIndex call).multiKeyStatusList keyIndex =
            none := by
        simp [ChannelInfo.setKeyStatus, henabled]
      rw [hasEnabledMultiKey_of_none (lt_length_of_idxOf? hindex) hremoved] at hnone
      cases hnone
    · split
      · next henabled => exact .inr (iff_of_true rfl henabled)
      · exact .inl ⟨rfl, hmulti⟩
  · exact .inr Iff.rfl

theorem mirrors_of_saved (hs : Mirrors s) {channel channel' : Channel}
    (hchannel : channel ∈ s.channels.rows) (hid : channel'.id = channel.id)
    (hgroup : channel'.group = channel.group) (hmodels : channel'.models = channel.models)
    (habilities : ∀ row, row ∈ abilities.rows ↔ ∃ old ∈ s.abilities.rows, onAbility old = row)
    (hown : ∀ group model, onAbility (channel.ability group model) = channel'.ability group model)
    (hother : ∀ row, row.channelId ≠ channel.id → onAbility row = row) :
    Mirrors ⟨s.channels.save channel', abilities⟩ := by
  have hsame (old : Channel) (hold : old ∈ s.channels.rows) (h : old.id = channel'.id) :
      old = channel := s.channels.eq_of_key_eq hold hchannel (h.trans hid)
  refine mirrors_of_updated hs (fun _ => mem_map) habilities ?_ ?_
  · intro old hold
    split
    · next h =>
      rw [hsame old hold h]
      exact ⟨hgroup, hmodels⟩
    · exact ⟨rfl, rfl⟩
  · intro old hold group model
    split
    · next h =>
      rw [hsame old hold h]
      exact hown group model
    · next h => exact hother _ fun heq => h (heq.trans hid.symm)

private theorem mirrors_updateChannelStatus (hs : Mirrors s) (call : StatusCall) :
    Mirrors (s.updateChannelStatus json call).1 := by
  unfold updateChannelStatus
  split
  · exact hs
  next channel hget =>
  obtain ⟨hchannel, hid⟩ := s.channels.get_eq_some_iff.mp hget
  split
  · exact hs
  obtain ⟨status, otherInfo, channelInfo, heq⟩ := channel.withStatus_eq json call
  have hstatus := channel.withStatus_status json call
  generalize channel.withStatus json call = channel' at heq hstatus ⊢
  dsimp only
  split
  · next hshould =>
    have henabled : channel'.status = channelStatusEnabled ↔
        call.status = channelStatusEnabled := by
      refine hstatus.resolve_left fun hunchanged => ?_
      simp [hunchanged] at hshould
    refine mirrors_of_saved hs hchannel (by rw [heq]) (by rw [heq]) (by rw [heq])
      (fun row => mem_map) (fun group model => ?_) fun row hrow => if_neg ?_
    · refine (if_pos hid).trans ?_
      simp only [Channel.ability, ← henabled]
      rw [heq]
    · rwa [← hid]
  · next hshould =>
    have hunchanged : channel.status = channel'.status := by
      by_contra hchanged
      simp [hchanged] at hshould
    refine mirrors_of_saved hs hchannel (by rw [heq]) (by rw [heq]) (by rw [heq])
      (fun row => by simp) (fun group model => ?_) fun row _ => rfl
    simp only [Channel.ability, ← hunchanged]
    rw [heq]

private theorem mirrors_setStatusByTag (hs : Mirrors s) (tag : String) (status : Int) :
    Mirrors (s.setStatusByTag tag status) := by
  refine mirrors_of_updated hs (fun _ => mem_map) (fun _ => mem_map) ?_ ?_
  · intro channel _
    split <;> exact ⟨rfl, rfl⟩
  · intro channel _ group model
    change (if channel.tag = some tag then _ else _) = _
    split <;> rfl

/-! ## Edits by tag -/

theorem mem_foldl_updateAbilities {channels : List Channel}
    (hnodup : (channels.map Channel.id).Nodup) (abilities : Table Ability Ability.key)
    (row : Ability) :
    row ∈ (channels.foldl (fun abilities channel => channel.updateAbilities abilities)
        abilities).rows ↔
      row ∈ abilities.rows ∧ row.channelId ∉ channels.map Channel.id ∨
        ∃ channel ∈ channels, row ∈ channel.newAbilities := by
  induction channels generalizing abilities with
  | nil => simp
  | cons channel channels ih =>
    rw [map_cons, nodup_cons] at hnodup
    rw [foldl_cons, ih hnodup.2, mem_updateAbilities]
    simp only [map_cons, mem_cons, not_or, exists_eq_or_imp]
    constructor
    · rintro (⟨⟨hrow, hid⟩ | hnew, hother⟩ | hlater)
      · exact .inl ⟨hrow, hid, hother⟩
      · exact .inr (.inl hnew)
      · exact .inr (.inr hlater)
    · rintro (⟨hrow, hid, hother⟩ | hnew | hlater)
      · exact .inl ⟨.inl ⟨hrow, hid⟩, hother⟩
      · -- a later channel has another id
        refine .inl ⟨.inr hnew, ?_⟩
        rw [(offers_of_mem_newAbilities hnew).channelId]
        exact hnodup.1
      · exact .inr hlater

theorem Channel.editByTag_id (tag : String) (edit : TagEdit) (channel : Channel) :
    (channel.editByTag tag edit).id = channel.id := by
  unfold Channel.editByTag
  split <;> rfl

theorem Channel.editByTag_tag {channel : Channel} (h : channel.tag = some tag) :
    (channel.editByTag tag edit).tag = some (edit.newTag.getD tag) := by
  simp only [Channel.editByTag, if_pos h, Channel.updates, TagEdit.updateData]
  cases hnew : edit.newTag with
  | none => simp [h]
  | some newTag =>
    by_cases heq : newTag = tag
    · simp [heq, h]
    · simp [heq]

theorem mem_editChannels {channel : Channel} :
    channel ∈ (s.editChannels tag edit).rows ↔
      ∃ old ∈ s.channels.rows, old.editByTag tag edit = channel := mem_map

private theorem mirrors_editChannelByTag_recreating_iff (hs : Mirrors s) (tag : String)
    (h : edit.shouldReCreateAbilities = true) :
    Mirrors (s.editChannelByTag tag edit) ↔
      ∀ channel ∈ s.taggedAfter tag edit, channel.Separable := by
  have hnodup : ((s.taggedAfter tag edit).map Channel.id).Nodup :=
    (s.editChannels tag edit).nodup.sublist (filter_sublist.map _)
  have htagged (channel : Channel) : channel ∈ s.taggedAfter tag edit ↔
      channel ∈ (s.editChannels tag edit).rows ∧ channel.tag = some (edit.newTag.getD tag) := by
    simp [taggedAfter]
  refine mirrors_recreated_iff hs (fun channel => ?_) (fun row => ?_)
  · change channel ∈ (s.editChannels tag edit).rows ↔ _
    constructor
    · intro hchannel
      by_cases htag : channel.tag = some (edit.newTag.getD tag)
      · exact .inl ((htagged channel).mpr ⟨hchannel, htag⟩)
      -- a channel without the tag was not edited
      obtain ⟨old, hold, rfl⟩ := mem_editChannels.mp hchannel
      have hunedited : old.editByTag tag edit = old := by
        refine if_neg fun holdtag => htag (Channel.editByTag_tag holdtag)
      rw [hunedited] at hchannel htag ⊢
      refine .inr ⟨hold, fun hin => ?_⟩
      obtain ⟨other, hother, hid⟩ := mem_map.mp hin
      obtain ⟨hmem, hothertag⟩ := (htagged other).mp hother
      rw [(s.editChannels tag edit).eq_of_key_eq hmem hchannel hid] at hothertag
      exact htag hothertag
    · rintro (hin | ⟨hold, hother⟩)
      · exact ((htagged channel).mp hin).1
      · have hedited : channel.editByTag tag edit ∈ (s.editChannels tag edit).rows :=
          mem_editChannels.mpr ⟨channel, hold, rfl⟩
        have huntagged : channel.tag ≠ some tag := by
          intro htag
          refine hother (mem_map.mpr ⟨channel.editByTag tag edit, ?_,
            channel.editByTag_id tag edit⟩)
          exact (htagged _).mpr ⟨hedited, Channel.editByTag_tag htag⟩
        rwa [Channel.editByTag, if_neg huntagged] at hedited
  · simp only [editChannelByTag, if_pos h]
    exact mem_foldl_updateAbilities hnodup s.abilities row

private theorem ability_editByTag {channel : Channel}
    (hweight : edit.weight = some 0 → channel.tag = some tag → channel.weight = 0)
    (group model : String) :
    (channel.ability group model).editByTag tag edit =
      (channel.editByTag tag edit).ability group model := by
  unfold Ability.editByTag
  change (if channel.tag = some tag then _ else _) = _
  split
  · next htag =>
    have hweight' : (if edit.weight.getD 0 = 0 then channel.weight else edit.weight.getD 0) =
        edit.weight.getD channel.weight := by
      cases hedit : edit.weight with
      | none => rfl
      | some weight =>
        by_cases hzero : weight = 0
        · subst hzero
          exact hweight hedit htag
        · simp [hzero]
    have htag' : (channel.editByTag tag edit).tag = edit.newTag.or channel.tag := by
      rw [Channel.editByTag_tag htag, htag]
      cases edit.newTag <;> rfl
    simp only [Channel.ability, hweight', ← htag']
    simp [Channel.editByTag, if_pos htag, Channel.updates, TagEdit.updateData]
  · next htag => rw [Channel.editByTag, if_neg htag]

private theorem mirrors_editChannelByTag_updating_iff (hs : Mirrors s) (tag : String)
    (h : edit.shouldReCreateAbilities = false) :
    Mirrors (s.editChannelByTag tag edit) ↔
      (edit.weight = some 0 →
        ∀ channel ∈ s.channels.rows, channel.tag = some tag → channel.weight = 0) := by
  have hrows (row : Ability) : row ∈ (s.editChannelByTag tag edit).abilities.rows ↔
      ∃ old ∈ s.abilities.rows, old.editByTag tag edit = row := by
    simp only [editChannelByTag, h]
    exact mem_map
  constructor
  · intro hafter hzero channel hchannel htag
    obtain ⟨row, hrow⟩ := channel.exists_offers
    obtain ⟨channel', hchannel', hoffers⟩ := (hafter (row.editByTag tag edit)).mp
      ((hrows _).mpr ⟨row, (hs row).mpr ⟨channel, hchannel, hrow⟩, rfl⟩)
    obtain ⟨old, hold, rfl⟩ := mem_editChannels.mp hchannel'
    obtain ⟨group, -, model, -, rfl⟩ := hrow
    obtain ⟨group', -, model', -, heq⟩ := hoffers
    simp only [Ability.editByTag, Channel.ability, htag, if_true, hzero, Option.getD_some]
      at heq
    have hid : channel.id = old.id :=
      (congrArg Ability.channelId heq).trans (Channel.editByTag_id tag edit old)
    obtain rfl := s.channels.eq_of_key_eq hchannel hold hid
    have hweight : channel.weight = (channel.editByTag tag edit).weight :=
      congrArg Ability.weight heq
    rw [hweight, Channel.editByTag, if_pos htag]
    simp [Channel.updates, TagEdit.updateData, hzero]
  · intro hweight
    have hempty : edit.models.getD "" = "" ∧ edit.group.getD "" = "" := by
      simpa [TagEdit.shouldReCreateAbilities] using h
    refine mirrors_of_updated hs (fun _ => mem_map) hrows ?_ ?_
    · intro channel _
      unfold Channel.editByTag
      split
      · simp [Channel.updates, TagEdit.updateData, hempty]
      · exact ⟨rfl, rfl⟩
    · intro channel hchannel group model
      exact ability_editByTag (fun hzero => hweight hzero channel hchannel) group model

theorem mirrors_empty : Mirrors empty := by
  intro row
  simp [empty]

theorem mirrors_step_iff (hs : Mirrors s) (op : Operation) :
    Mirrors (step json s op) ↔ Regular json s op := by
  cases op with
  | insert id data => exact mirrors_insert_iff hs id data
  | batchInsertChannels channels =>
    simp only [step, Regular]
    cases h : s.batchInsertChannels channels with
    | none => simpa using hs
    | some =>
      rw [Option.getD_some, (inserted_of_batchInsertChannels hs.owned h).mirrors_iff hs, created,
        forall_mem_map]
      exact ⟨fun hseparable _ => hseparable, fun hseparable => hseparable rfl⟩
  | update id data => exact mirrors_update_iff json hs id data
  | updateChannelStatus call => exact iff_of_true (mirrors_updateChannelStatus json hs call) trivial
  | enableChannelByTag tag | disableChannelByTag tag =>
    exact iff_of_true (mirrors_setStatusByTag hs tag _) trivial
  | editChannelByTag tag edit =>
    cases h : edit.shouldReCreateAbilities with
    | true =>
      simp only [Regular, h, if_true]
      exact mirrors_editChannelByTag_recreating_iff hs tag h
    | false =>
      simp only [Regular, h]
      exact mirrors_editChannelByTag_updating_iff hs tag h
  | delete id => exact iff_of_true (mirrors_deleteChannels hs [id]) trivial
  | batchDeleteChannels ids => exact iff_of_true (mirrors_deleteChannels hs ids) trivial
  | deleteChannelByStatus =>
    refine (mirrors_deleteChannelsWhere_iff hs _).trans ?_
    simp [Regular]
  | deleteDisabledChannel => exact mirrors_deleteChannelsWhere_iff hs isDisabled

/-- The abilities are those of the channels in every state of a run exactly when every
operation is regular. -/
theorem abilities_mirror_channels_iff (json : JsonArrays) (operations : List Operation) :
    (∀ before after, operations = before ++ after → Mirrors (run (step json) empty before)) ↔
      Admits (step json) (Regular json) empty operations := by
  have hside : Admits (step json) (fun _ _ => True) empty operations :=
    admits_of_forall (fun _ _ => trivial) _ _
  refine forall_prefix_iff_admits (fun _ hs => hs) ?_ ?_ mirrors_empty hside
  · intro s op hs _ hregular
    exact (mirrors_step_iff json hs op).mpr hregular
  · intro s op hs _ hlaw
    exact (mirrors_step_iff json hs op).mp hlaw

/-- Deleting the disabled channels leaves the ability of the only one; setting the weight of a
tag to zero leaves the ability with its old weight. -/
theorem abilities_left_behind :
    ¬ Mirrors (run (step ⟨fun _ => none, fun _ => none⟩) empty
      [.insert 1 { status := 2, models := "gpt-4o", group := "default" }, .deleteDisabledChannel]) ∧
    ¬ Mirrors (run (step ⟨fun _ => none, fun _ => none⟩) empty
      [.insert 1 { models := "gpt-4o", group := "default", weight := some 5, tag := some "a" },
        .editChannelByTag "a" { weight := some 0 }]) := by
  constructor
  · intro h
    obtain ⟨channel, hchannel, -⟩ := (h ⟨"default", "gpt-4o", 1, false, 0, 0, none⟩).mp (by decide)
    exact absurd hchannel not_mem_nil
  · intro h
    obtain ⟨channel, hchannel, group, -, model, -, heq⟩ :=
      (h ⟨"default", "gpt-4o", 1, true, 0, 5, some "a"⟩).mp (by decide)
    obtain rfl := mem_singleton.mp hchannel
    have hweight : (5 : Nat) = 0 := congrArg Ability.weight heq
    exact absurd hweight (by decide)

/-! ## Tags set in a batch -/

/-- The channels are read outside of the transaction that has written their tag. -/
def Store.batchSetChannelTag (s : Store) (ids : List Nat) (tag : Option String) : Store where
  channels := s.channels.update
    (fun channel => if channel.id ∈ ids then { channel with tag := tag } else channel)
    (by
      intro channel
      split <;> rfl)
  abilities := (s.channels.rows.filter fun channel => decide (channel.id ∈ ids)).foldl
    (fun abilities channel => channel.updateAbilities abilities) s.abilities

theorem Mirrors.mem_batchSetChannelTag (hs : Mirrors s) {ids : List Nat} (tag : Option String)
    (hid : row.channelId ∈ ids) :
    row ∈ (s.batchSetChannelTag ids tag).abilities.rows ↔
      ∃ channel ∈ s.channels.rows, row ∈ channel.newAbilities := by
  refine (mem_foldl_updateAbilities (s.channels.nodup.sublist (filter_sublist.map _)) _ _).trans ?_
  constructor
  · rintro (⟨hrow, hother⟩ | ⟨channel, hchannel, hnew⟩)
    · obtain ⟨channel, hchannel, hoffers⟩ := (hs row).mp hrow
      rw [hoffers.channelId] at hid hother
      exact absurd (mem_map_of_mem (mem_filter.mpr ⟨hchannel, decide_eq_true hid⟩)) hother
    · exact ⟨channel, (mem_filter.mp hchannel).1, hnew⟩
  · rintro ⟨channel, hchannel, hnew⟩
    rw [(offers_of_mem_newAbilities hnew).channelId] at hid
    exact .inr ⟨channel, mem_filter.mpr ⟨hchannel, decide_eq_true hid⟩, hnew⟩

/-- Disabling a tag misses the enabled channels that were given it in a batch. -/
theorem disabled_after_batchSetChannelTag_iff (hs : Mirrors s) (ids : List Nat) (tag : String) :
    (∀ row ∈ ((s.batchSetChannelTag ids (some tag)).setStatusByTag tag
        channelStatusManuallyDisabled).abilities.rows,
      row.channelId ∈ ids → row.enabled = false) ↔
    ∀ channel ∈ s.channels.rows, channel.id ∈ ids → channel.status = channelStatusEnabled →
      channel.tag = some tag := by
  constructor
  · intro h channel hchannel hid hstatus
    obtain ⟨row, hnew⟩ := channel.exists_newAbility
    obtain ⟨group, -, model, -, rfl⟩ := offers_of_mem_newAbilities hnew
    have hrow := (hs.mem_batchSetChannelTag (some tag) hid).mpr ⟨channel, hchannel, hnew⟩
    by_contra htag
    have hkept := h _ (mem_map.mpr ⟨_, hrow, if_neg htag⟩) hid
    simp [Channel.ability, hstatus] at hkept
  · intro h row hrow hid
    obtain ⟨old, hold, rfl⟩ := mem_map.mp hrow
    split_ifs at hid ⊢ with htag
    · rfl
    · obtain ⟨channel, hchannel, hnew⟩ := (hs.mem_batchSetChannelTag _ hid).mp hold
      obtain ⟨group, -, model, -, rfl⟩ := offers_of_mem_newAbilities hnew
      exact decide_eq_false fun hstatus => htag (h channel hchannel hid hstatus)

def oneTagged : Store :=
  (empty.insert 1 { models := "gpt-4o", group := "default", tag := some "a" }).getD empty

theorem disabled_after_batchSetChannelTag_iff_one :
    ¬ ∀ row ∈ ((oneTagged.batchSetChannelTag [1] (some "b")).setStatusByTag "b"
        channelStatusManuallyDisabled).abilities.rows,
      row.channelId ∈ [1] → row.enabled = false := by
  have hs : Mirrors oneTagged := by
    refine (mirrors_insert_iff mirrors_empty 1 _).mpr fun _ => ?_
    unfold Channel.Separable
    decide
  rw [disabled_after_batchSetChannelTag_iff hs]
  decide

end NewApi.Routing
