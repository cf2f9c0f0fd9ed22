import NewApi.Routing.Abilities
import NewApi.Routing.Cache

/-!
# Repairing the abilities while the cache is rebuilt

`FixAbility` empties the table of abilities and fills it again channel by
channel.  A rebuild of the cache reads the channels and, later, the abilities;
any number of steps of the repair may lie before each of the two reads.
-/

namespace NewApi.Routing

open Foundation List Routing.Channel

inductive RepairStep where
  | truncate
  | deleteOf (ids : List Nat)
  | add (channel : Channel)

open RepairStep

def RepairStep.apply (abilities : Table Ability Ability.key) :
    RepairStep → Table Ability Ability.key
  | .truncate => Store.empty.abilities
  | .deleteOf ids => abilities.deleteWhere fun ability => decide (ability.channelId ∈ ids)
  | .add channel => channel.addAbilities abilities

@[simp]
theorem RepairStep.rows_apply_truncate (abilities : Table Ability Ability.key) :
    (apply abilities .truncate).rows = [] := rfl

def RepairStep.added : RepairStep → Option Channel
  | .add channel => some channel
  | _ => none

def chunkSteps (chunk : List Channel) : List RepairStep :=
  .deleteOf (chunk.map Channel.id) :: chunk.map .add

def fixAbility (channels : List Channel) : List RepairStep :=
  .truncate :: (channels.toChunks 50).flatMap chunkSteps

def Store.repaired (s : Store) (n : Nat) : Store :=
  { s with
    abilities := ((fixAbility s.channels.rows).take n).foldl apply s.abilities }

def Store.addedAfter (s : Store) (n : Nat) : List Channel :=
  ((fixAbility s.channels.rows).take n).filterMap added

/-- A rebuild with `before` steps of the repair before it reads the channels, and `between`
more before it reads the abilities. -/
def rebuildDuringRepair (sorting : Sorting) (s : Store) (old : Cache) (before between : Nat) :
    Option Cache :=
  initChannelCache sorting (s.repaired before).channels.rows
    (s.repaired (before + between)).abilities.rows old

/-- Every group of an enabled channel is among the abilities after `n` steps: those that were
there, as long as they have not been deleted, or those added again. -/
def Covered (s : Store) (n : Nat) : Prop :=
  ∀ channel ∈ s.channels.rows, channel.status = channelStatusEnabled →
    ∀ group ∈ channel.groups,
      if n = 0 then ∃ ability ∈ s.abilities.rows, ability.group = group
      else ∃ other ∈ s.addedAfter n, group ∈ other.groups

def Untouched : List Nat → List RepairStep → Prop
  | _, [] => True
  | used, .truncate :: steps => used = [] ∧ Untouched used steps
  | used, .deleteOf ids :: steps => (∀ id ∈ ids, id ∉ used) ∧ Untouched used steps
  | used, .add channel :: steps => channel.id ∉ used ∧ Untouched (channel.id :: used) steps

variable {used : List Nat} {steps : List RepairStep} {α : Type} {s : Store} {group : String}

private theorem mem_foldl_apply (h : Untouched used steps) {abilities : Table Ability Ability.key}
    (hused : ∀ row ∈ abilities.rows, row.channelId ∈ used) (row : Ability) :
    row ∈ (steps.foldl apply abilities).rows ↔
      row ∈ abilities.rows ∨ ∃ channel ∈ steps.filterMap added, row ∈ channel.newAbilities := by
  induction steps generalizing used abilities with
  | nil => simp
  | cons step steps ih =>
    rw [foldl_cons]
    cases step with
    | truncate =>
      obtain ⟨rfl, hrest⟩ := h
      have hempty : ∀ row, row ∉ abilities.rows := fun row hrow => by
        simpa using hused row hrow
      rw [ih hrest (by simp)]
      simp [added, hempty]
    | deleteOf ids =>
      obtain ⟨hids, hrest⟩ := h
      have hkept (row : Ability) :
          row ∈ (apply abilities (.deleteOf ids)).rows ↔ row ∈ abilities.rows := by
        rw [apply, Table.mem_deleteWhere, decide_eq_false_iff_not]
        exact ⟨And.left, fun hrow => ⟨hrow, fun hid => hids _ hid (hused row hrow)⟩⟩
      rw [ih hrest fun row hrow => hused row ((hkept row).mp hrow), hkept]
      simp [added]
    | add channel =>
      obtain ⟨hnew, hrest⟩ := h
      have hfree : ∀ row ∈ abilities.rows, row.channelId ≠ channel.id := by
        intro row hrow hid
        exact hnew (hid ▸ hused row hrow)
      have hadded (row : Ability) :
          row ∈ (apply abilities (.add channel)).rows ↔
            row ∈ abilities.rows ∨ row ∈ channel.newAbilities := mem_addAbilities hfree
      rw [ih hrest, hadded, or_assoc]
      · simp [added]
      · intro row hrow
        obtain hold | hnew := (hadded row).mp hrow
        · exact mem_cons_of_mem _ (hused row hold)
        · rw [(offers_of_mem_newAbilities hnew).channelId]
          exact mem_cons_self

theorem Untouched.take (h : Untouched used steps) (n : Nat) : Untouched used (steps.take n) := by
  induction steps generalizing used n with
  | nil => simpa using h
  | cons step steps ih =>
    cases n with
    | zero => trivial
    | succ n =>
      cases step with
      | truncate | deleteOf | add => exact ⟨h.1, ih h.2 n⟩

private theorem untouched_adds {channels : List Channel} (hnodup : (channels.map Channel.id).Nodup)
    (hfree : ∀ channel ∈ channels, channel.id ∉ used)
    (hrest : ∀ used', (∀ id ∈ used', id ∈ used ∨ id ∈ channels.map Channel.id) →
      Untouched used' steps) : Untouched used (channels.map .add ++ steps) := by
  induction channels generalizing used with
  | nil => exact hrest used fun id hid => .inl hid
  | cons channel channels ih =>
    rw [map_cons, nodup_cons] at hnodup
    refine ⟨hfree channel mem_cons_self, ih hnodup.2 ?_ ?_⟩
    · intro other hother
      rw [mem_cons, not_or]
      refine ⟨fun hid => hnodup.1 ?_, hfree other (mem_cons_of_mem channel hother)⟩
      exact mem_map.mpr ⟨other, hother, hid⟩
    · intro used' hused'
      refine hrest used' fun id hid => ?_
      rw [map_cons, mem_cons]
      obtain hid | hid := hused' id hid
      · obtain rfl | hid := mem_cons.mp hid
        · exact .inr (.inl rfl)
        · exact .inl hid
      · exact .inr (.inr hid)

private theorem untouched_chunks {chunks : List (List Channel)}
    (hnodup : (chunks.flatten.map Channel.id).Nodup)
    (hfree : ∀ channel ∈ chunks.flatten, channel.id ∉ used) :
    Untouched used (chunks.flatMap chunkSteps) := by
  induction chunks generalizing used with
  | nil => trivial
  | cons chunk chunks ih =>
    rw [flatten_cons, map_append, nodup_append] at hnodup
    obtain ⟨hchunk, hchunks, hdisjoint⟩ := hnodup
    have hfree' (channel : Channel) (h : channel ∈ chunk ∨ channel ∈ chunks.flatten) :
        channel.id ∉ used := hfree channel (by rwa [flatten_cons, mem_append])
    refine ⟨?_, untouched_adds hchunk (fun channel h => hfree' channel (.inl h)) ?_⟩
    · intro id hid
      obtain ⟨channel, hchannel, rfl⟩ := mem_map.mp hid
      exact hfree' channel (.inl hchannel)
    · intro used' hused'
      refine ih hchunks fun channel hchannel hid => ?_
      obtain hid | hid := hused' _ hid
      · exact hfree' channel (.inr hchannel) hid
      · exact hdisjoint _ hid _ (mem_map_of_mem hchannel) rfl

theorem toChunks_go_flatten (n : Nat) (l : List α) (chunk : Array α) (chunks : Array (List α)) :
    (List.toChunks.go n l chunk chunks).flatten = chunks.toList.flatten ++ chunk.toList ++ l := by
  induction l generalizing chunk chunks with
  | nil => simp [List.toChunks.go]
  | cons a l ih =>
    rw [List.toChunks.go]
    split
    · rw [ih]
      simp
    · rw [ih]
      simp

private theorem toChunks_flatten (n : Nat) (l : List α) : (l.toChunks n).flatten = l := by
  unfold List.toChunks
  split
  · rfl
  · simp
  · rw [toChunks_go_flatten]
    simp

private theorem mem_repaired (n : Nat) (row : Ability) :
    row ∈ (s.repaired (n + 1)).abilities.rows ↔
      ∃ channel ∈ s.addedAfter (n + 1), row ∈ channel.newAbilities := by
  have hsteps : Untouched [] ((s.channels.rows.toChunks 50).flatMap chunkSteps) := by
    refine untouched_chunks ?_ fun channel _ => not_mem_nil
    rw [toChunks_flatten]
    exact s.channels.nodup
  -- the first step empties the table
  simp only [Store.repaired, Store.addedAfter, fixAbility, take_succ_cons, foldl_cons]
  rw [mem_foldl_apply (hsteps.take n) (by simp)]
  simp [added]

theorem Channel.exists_newAbility_of_group {channel : Channel} (h : group ∈ channel.groups) :
    ∃ row ∈ channel.newAbilities, row.group = group := by
  obtain ⟨model, models, hmodels⟩ := exists_cons_of_ne_nil (split_ne_nil ',' channel.models)
  have hpairs : channel.pairs = channel.groups.map (fun group => (group, model)) ++
      models.flatMap fun model => channel.groups.map fun group => (group, model) := by
    rw [pairs, modelNames, hmodels, flatMap_cons]
  obtain ⟨pair, hpair, hkey⟩ : ∃ pair ∈ distinctBy abilitySetKey []
      (channel.groups.map fun group => (group, model)),
      abilitySetKey pair = abilitySetKey (group, model) :=
    exists_mem_distinctBy (mem_map.mpr ⟨group, h, rfl⟩) not_mem_nil
  obtain ⟨group', -, rfl⟩ := mem_map.mp (mem_of_mem_distinctBy hpair).1
  obtain rfl : group' = group := by
    simpa [abilitySetKey] using hkey
  refine ⟨channel.ability group' model, mem_newAbilities.mpr ⟨(group', model), ?_, rfl⟩, rfl⟩
  rw [hpairs]
  exact mem_distinctBy_append hpair

theorem exists_group_repaired_iff {n : Nat} :
    (∃ row ∈ (s.repaired n).abilities.rows, row.group = group) ↔
      if n = 0 then ∃ ability ∈ s.abilities.rows, ability.group = group
      else ∃ channel ∈ s.addedAfter n, group ∈ channel.groups := by
  cases n with
  | zero => rfl
  | succ n =>
    rw [if_neg (Nat.succ_ne_zero n)]
    simp only [mem_repaired]
    constructor
    · rintro ⟨row, ⟨channel, hchannel, hnew⟩, rfl⟩
      obtain ⟨group, hgroup, -, -, rfl⟩ := offers_of_mem_newAbilities hnew
      exact ⟨channel, hchannel, hgroup⟩
    · rintro ⟨channel, hchannel, hgroup⟩
      obtain ⟨row, hrow, hname⟩ := exists_newAbility_of_group hgroup
      exact ⟨row, ⟨channel, hchannel, hrow⟩, hname⟩

/-- The rebuild comes to its end exactly when the abilities that it reads cover the groups of
the enabled channels. -/
theorem rebuild_survives_repair_iff (sorting : Sorting) (s : Store) (old : Cache)
    (before between : Nat) :
    (rebuildDuringRepair sorting s old before between).isSome = true ↔
      Covered s (before + between) := by
  rw [rebuildDuringRepair, initChannelCache, Option.isSome_map, buildLists_isSome_iff]
  constructor
  · intro h channel hchannel hstatus group hgroup
    obtain ⟨model, hmodel⟩ := exists_mem_of_ne_nil _ (split_ne_nil ',' channel.models)
    have hentry : (group, model, channel.id) ∈ entries (s.repaired before).channels.rows :=
      mem_entries.mpr ⟨channel, hchannel, hstatus, hgroup, hmodel, rfl⟩
    exact exists_group_repaired_iff.mp (h _ hentry)
  · rintro h ⟨group, model, id⟩ hentry
    obtain ⟨channel, hchannel, hstatus, hgroup, -, -⟩ := mem_entries.mp hentry
    exact exists_group_repaired_iff.mpr (h channel hchannel hstatus group hgroup)

/-- The abilities are read right after they have been deleted. -/
theorem rebuild_crashes_during_repair :
    (rebuildDuringRepair
      Sorting.insertion
      ⟨⟨[{ id := 1, status := 1, models := "gpt-4o", group := "default", priority := 0,
            weight := 0 }], by decide⟩,
        ⟨[⟨"default", "gpt-4o", 1, true, 0, 0, none⟩], by decide⟩⟩
      Cache.empty 0 1).isSome = false := by
  decide

end NewApi.Routing
