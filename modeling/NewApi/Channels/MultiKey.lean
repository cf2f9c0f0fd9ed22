import NewApi.Foundation.GoString
import NewApi.Foundation.Run
import Mathlib.Data.List.Nodup

/-!
# Channels with many keys

The keys of a multi-key channel are stored as one text, the state of each key
under its position: `UpdateChannel` and `ManageMultiKeys` in
`controller/channel.go`, `GetKeys` and `Update` in `model/channel.go`.
-/

namespace NewApi.Channels

open Foundation List Function

inductive KeyStatus where
  | enabled
  | manuallyDisabled
  | autoDisabled
  deriving DecidableEq

/-- The maps are keyed by the position of a key. -/
structure ChannelInfo (Status : Type) where
  isMultiKey : Bool := false
  multiKeySize : Nat := 0
  multiKeyStatusList : Nat → Option Status := fun _ => none
  multiKeyDisabledTime : Nat → Option Int := fun _ => none
  multiKeyDisabledReason : Nat → Option String := fun _ => none

structure Channel where
  key : String
  channelInfo : ChannelInfo KeyStatus

inductive JsonKey where
  | text (s : String)
  | other (marshalled : String)

/-- `json.Unmarshal` of an array, into raw messages and into values. -/
structure JsonArrays where
  rawMessages : String → Option (List String)
  values : String → Option (List JsonKey)

inductive ManageError where
  | notMultiKey
  | keyIndexMissing
  | keyIndexOutOfRange
  | lastKey
  | nothingToDisable
  | nothingToDelete
  | invalidArray
  | emptyArray

inductive KeyMode where
  | append
  | replace
  deriving DecidableEq

/-- The request of `UpdateChannel`.  Vertex AI keys are JSON objects, unless
the channel uses API keys. -/
structure PatchChannel where
  key : String
  keyMode : Option KeyMode
  isVertexJson : Bool := false

inductive Operation where
  | updateChannel (request : PatchChannel)
  | disableKey (keyIndex : Option Int)
  | enableKey (keyIndex : Option Int)
  | enableAllKeys
  | disableAllKeys
  | deleteKey (keyIndex : Option Int)
  | deleteDisabledKeys

def Channel.status (channel : Channel) (i : Nat) : KeyStatus :=
  (channel.channelInfo.multiKeyStatusList i).getD .enabled

def splitKeys (key : String) : List String := split '\n' (trimChar '\n' key)

section

variable (json : JsonArrays)

def getKeys (key : String) : List String :=
  if key = "" then []
  else
    let trimmed := trimSpace key
    if hasPrefix trimmed "[" then
      match json.rawMessages trimmed with
      | some messages => messages
      | none => splitKeys key
    else splitKeys key

def countedKeys (keyStr : String) : List String :=
  if keyStr = "" then []
  else
    let trimmed := trimSpace keyStr
    let keys := if hasPrefix trimmed "[" then (json.rawMessages trimmed).getD [] else []
    if keys.length = 0 then splitKeys keyStr else keys

/-- The save skips an empty key, the count then takes the stored one. -/
def Channel.update (stored channel : Channel) : Channel :=
  let keyStr := if channel.key ≠ "" then channel.key else stored.key
  { key := keyStr
    channelInfo :=
      if channel.channelInfo.isMultiKey then
        let size := (countedKeys json keyStr).length
        { channel.channelInfo with
          multiKeySize := size
          multiKeyStatusList := fun i =>
            if i ≥ size then none else channel.channelInfo.multiKeyStatusList i }
      else channel.channelInfo }

def existingKeys (key : String) : List String :=
  if hasPrefix (trimSpace key) "[" then (json.rawMessages (trimSpace key)).getD []
  else splitKeys key

def getVertexArrayKeys (keys : String) : Except ManageError (List String) :=
  if keys = "" then .ok []
  else
    match json.values keys with
    | none => .error .invalidArray
    | some keyArray =>
      let cleanKeys := (keyArray.map fun key =>
        match key with
        | .text s => trimSpace s
        | .other marshalled => marshalled).filter fun key => key ≠ ""
      if cleanKeys.length = 0 then .error .emptyArray else .ok cleanKeys

def newKeys (request : PatchChannel) : Except ManageError (List String) :=
  if request.isVertexJson then
    if hasPrefix (trimSpace request.key) "[" then getVertexArrayKeys json request.key
    else .ok [request.key]
  else .ok (((split '\n' request.key).map trimSpace).filter fun key => key ≠ "")

def addNewKey (keys : List String × List String) (key : String) : List String × List String :=
  let normalized := trimSpace key
  if normalized = "" then keys
  else if normalized ∈ keys.1 then keys
  else (normalized :: keys.1, keys.2 ++ [normalized])

def dedupedNewKeys (existing new : List String) : List String :=
  (new.foldl addNewKey ((existing.map trimSpace).filter fun key => key ≠ "", [])).2

def appendKeys (origin : Channel) (request : PatchChannel) : Except ManageError String :=
  if origin.key ≠ "" then do
    let new ← newKeys json request
    let existing := existingKeys json origin.key
    pure (joinWith "\n" (existing ++ dedupedNewKeys existing new))
  else pure request.key

def updateChannel (request : PatchChannel) (origin : Channel) : Except ManageError Channel := do
  let key ←
    if request.keyMode = some .append ∧ origin.channelInfo.isMultiKey then
      appendKeys json origin request
    else pure request.key
  pure (origin.update json { key := key, channelInfo := origin.channelInfo })

/-! ### `ManageMultiKeys` -/

section

variable (channel : Channel)

def checkedIndex : Option Int → Except ManageError Nat
  | none => .error .keyIndexMissing
  | some keyIndex =>
    if keyIndex < 0 ∨ keyIndex ≥ channel.channelInfo.multiKeySize then
      .error .keyIndexOutOfRange
    else .ok keyIndex.toNat

def Channel.setStatusList (statusList : Nat → Option KeyStatus) : Channel :=
  { channel with channelInfo := { channel.channelInfo with multiKeyStatusList := statusList } }

def disableKey (keyIndex : Option Int) (channel : Channel) : Except ManageError Channel := do
  let i ← checkedIndex channel keyIndex
  pure (channel.update json (channel.setStatusList
    (update channel.channelInfo.multiKeyStatusList i (some .manuallyDisabled))))

def enableKey (keyIndex : Option Int) (channel : Channel) : Except ManageError Channel := do
  let i ← checkedIndex channel keyIndex
  pure (channel.update json
    { channel with
      channelInfo :=
        { channel.channelInfo with
          multiKeyStatusList := update channel.channelInfo.multiKeyStatusList i none
          multiKeyDisabledTime := update channel.channelInfo.multiKeyDisabledTime i none
          multiKeyDisabledReason := update channel.channelInfo.multiKeyDisabledReason i none } })

def enableAllKeys : Except ManageError Channel :=
  pure (channel.update json
    { channel with
      channelInfo :=
        { channel.channelInfo with
          multiKeyStatusList := fun _ => none
          multiKeyDisabledTime := fun _ => none
          multiKeyDisabledReason := fun _ => none } })

def disableAt (statuses : (Nat → Option KeyStatus) × Nat) (i : Nat) :
    (Nat → Option KeyStatus) × Nat :=
  if (statuses.1 i).getD .enabled = .enabled then
    (update statuses.1 i (some .manuallyDisabled), statuses.2 + 1)
  else statuses

def disableAllKeys : Except ManageError Channel :=
  let (statusList, disabledCount) := (List.range channel.channelInfo.multiKeySize).foldl disableAt
    (channel.channelInfo.multiKeyStatusList, 0)
  if disabledCount = 0 then .error .nothingToDisable
  else pure (channel.update json (channel.setStatusList statusList))

structure Remaining where
  keys : List String := []
  statusList : Nat → Option KeyStatus := fun _ => none
  disabledTime : Nat → Option Int := fun _ => none
  disabledReason : Nat → Option String := fun _ => none

def copyTo {β : Type} (target : Nat → Option β) (newIndex : Nat) (value : Option β) :
    Nat → Option β :=
  match value with
  | some b => update target newIndex (some b)
  | none => target

def Remaining.skipIndex (info : ChannelInfo KeyStatus) (keyIndex : Nat) (r : Remaining)
    (entry : String × Nat) : Remaining :=
  if entry.2 = keyIndex then r
  else
    { keys := r.keys ++ [entry.1]
      statusList := copyTo r.statusList r.keys.length
        ((info.multiKeyStatusList entry.2).filter fun status => status ≠ .enabled)
      disabledTime := copyTo r.disabledTime r.keys.length (info.multiKeyDisabledTime entry.2)
      disabledReason := copyTo r.disabledReason r.keys.length
        (info.multiKeyDisabledReason entry.2) }

def Remaining.skipAutoDisabled (info : ChannelInfo KeyStatus) (r : Remaining)
    (entry : String × Nat) : Remaining :=
  match (info.multiKeyStatusList entry.2).getD .enabled with
  | .autoDisabled => r
  | .enabled => { r with keys := r.keys ++ [entry.1] }
  | .manuallyDisabled =>
    { keys := r.keys ++ [entry.1]
      statusList := copyTo r.statusList r.keys.length (some .manuallyDisabled)
      disabledTime := copyTo r.disabledTime r.keys.length (info.multiKeyDisabledTime entry.2)
      disabledReason := copyTo r.disabledReason r.keys.length
        (info.multiKeyDisabledReason entry.2) }

def Channel.setRemaining (r : Remaining) : Channel where
  key := joinWith "\n" r.keys
  channelInfo :=
    { channel.channelInfo with
      multiKeySize := r.keys.length
      multiKeyStatusList := r.statusList
      multiKeyDisabledTime := r.disabledTime
      multiKeyDisabledReason := r.disabledReason }

def deleteKey (keyIndex : Option Int) (channel : Channel) : Except ManageError Channel := do
  let i ← checkedIndex channel keyIndex
  let r := (getKeys json channel.key).zipIdx.foldl (Remaining.skipIndex channel.channelInfo i) {}
  if r.keys.length = 0 then .error .lastKey
  else pure (channel.update json (channel.setRemaining r))

def deletedCount : Nat :=
  (getKeys json channel.key).zipIdx.countP fun entry => channel.status entry.2 = .autoDisabled

def deleteDisabledKeys : Except ManageError Channel :=
  let r := (getKeys json channel.key).zipIdx.foldl
    (Remaining.skipAutoDisabled channel.channelInfo) {}
  if deletedCount json channel = 0 then .error .nothingToDelete
  else pure (channel.update json (channel.setRemaining r))

def manageMultiKeys (action : Channel → Except ManageError Channel) (channel : Channel) :
    Except ManageError Channel :=
  if channel.channelInfo.isMultiKey then action channel else .error .notMultiKey

def handle : Operation → Except ManageError Channel
  | .updateChannel request => updateChannel json request channel
  | .disableKey keyIndex => manageMultiKeys (disableKey json keyIndex) channel
  | .enableKey keyIndex => manageMultiKeys (enableKey json keyIndex) channel
  | .enableAllKeys => manageMultiKeys (enableAllKeys json) channel
  | .disableAllKeys => manageMultiKeys (disableAllKeys json) channel
  | .deleteKey keyIndex => manageMultiKeys (deleteKey json keyIndex) channel
  | .deleteDisabledKeys => manageMultiKeys (deleteDisabledKeys json) channel

def step (op : Operation) : Channel :=
  match handle json channel op with
  | .ok channel => channel
  | .error _ => channel

def Channel.keys : List String := getKeys json channel.key

def due (op : Operation) (i : Nat) (status : KeyStatus) : KeyStatus :=
  match op with
  | .updateChannel _ => status
  | .disableKey keyIndex => if keyIndex = some (i : Int) then .manuallyDisabled else status
  | .enableKey keyIndex => if keyIndex = some (i : Int) then .enabled else status
  | .enableAllKeys => .enabled
  | .disableAllKeys => if status = .enabled then .manuallyDisabled else status
  | .deleteKey _ => status
  | .deleteDisabledKeys => status

def ReportsDeleted (op : Operation) (i : Nat) : Prop :=
  (∃ after, handle json channel op = .ok after) ∧
    match op with
    | .deleteKey keyIndex => keyIndex = some (i : Int)
    | .deleteDisabledKeys => channel.status i = .autoDisabled
    | _ => False

structure Follows (before : Channel) (op : Operation) (after : Channel) : Prop where
  kept : ∀ i k, (before.keys json)[i]? = some k → k ∈ after.keys json →
    ∃ j, (after.keys json)[j]? = some k ∧ after.status j = due op i (before.status i)
  added : ∀ j k, (after.keys json)[j]? = some k → k ∉ before.keys json → after.status j = .enabled
  deleted : ∀ i k, (before.keys json)[i]? = some k → ReportsDeleted json before op i →
    k ∉ after.keys json
  size : after.channelInfo.multiKeySize = (after.keys json).length
  distinct : (after.keys json).Nodup

structure PlainKey (key : String) : Prop where
  oneLine : '\n' ∉ key.toList
  visible : trimSpace key ≠ ""
  noArray : hasPrefix (trimSpace key) "[" = false

structure PlainKeys (keys : List String) : Prop where
  nonempty : keys ≠ []
  plain : ∀ key ∈ keys, PlainKey key
  distinct : keys.Nodup

structure WellFormed (channel : Channel) : Prop where
  isMultiKey : channel.channelInfo.isMultiKey = true
  keys : PlainKeys (channel.keys json)
  size : channel.channelInfo.multiKeySize = (channel.keys json).length
  inRange : ∀ i ≥ (channel.keys json).length, channel.channelInfo.multiKeyStatusList i = none

structure DisabledStay (channel : Channel) (keys : List String) : Prop where
  position : ∀ i k, keys[i]? = some k → channel.status i ≠ .enabled →
    (channel.keys json)[i]? = some k
  key : ∀ i k, (channel.keys json)[i]? = some k → k ∈ keys → channel.status i ≠ .enabled →
    keys[i]? = some k

def Regular : Operation → Prop
  | .updateChannel request =>
    if request.keyMode = some .append then
      ∀ new, newKeys json request = .ok new →
        ∀ key ∈ new, trimSpace key ≠ "" → PlainKey (trimSpace key)
    else
      request.key = "" ∨
        (PlainKeys (getKeys json request.key) ∧
          DisabledStay json channel (getKeys json request.key))
  | .deleteDisabledKeys =>
    ∃ i k, (channel.keys json)[i]? = some k ∧ channel.status i ≠ .autoDisabled
  | _ => True

end

/-! ## Texts of keys -/

section

variable {key : String} {keys : List String}

theorem countedKeys_eq (h : getKeys json key ≠ []) : countedKeys json key = getKeys json key := by
  unfold getKeys at h ⊢
  unfold countedKeys
  by_cases hkey : key = ""
  · simp [hkey] at h
  rw [if_neg hkey] at h ⊢
  rw [if_neg hkey]
  dsimp only at h ⊢
  by_cases harray : hasPrefix (trimSpace key) "[" = true
  · rw [if_pos harray] at h ⊢
    rw [if_pos harray]
    cases hraw : json.rawMessages (trimSpace key) with
    | none => rfl
    | some keys =>
      rw [hraw] at h
      have hlength : ¬ keys.length = 0 := by
        rw [length_eq_zero_iff]
        exact h
      exact if_neg hlength
  · rw [if_neg harray, if_neg harray]
    rfl

theorem PlainKey.toList_ne_nil (h : PlainKey key) : key.toList ≠ [] := by
  intro hnil
  refine h.visible ?_
  rw [trimSpace, hnil]
  rfl

private theorem trimChar_joinWith (h : PlainKeys keys) :
    trimChar '\n' (joinWith "\n" keys) = joinWith "\n" keys := by
  rw [trimChar_eq_self_iff]
  constructor
  · obtain ⟨first, others, rfl⟩ := exists_cons_of_ne_nil h.nonempty
    have hfirst := h.plain first mem_cons_self
    obtain ⟨rest, hrest⟩ := exists_toList_joinWith_cons "\n" first others
    intro hhead
    rw [hrest, head?_append_of_ne_nil _ hfirst.toList_ne_nil] at hhead
    exact hfirst.oneLine (mem_of_head? hhead)
  · obtain ⟨others, last, rfl⟩ := (eq_nil_or_concat' keys).resolve_left h.nonempty
    have hlast := h.plain last (by simp)
    obtain ⟨rest, hrest⟩ := exists_toList_joinWith_concat "\n" last others
    intro hend
    rw [hrest, getLast?_append_of_ne_nil _ hlast.toList_ne_nil] at hend
    exact hlast.oneLine (mem_of_getLast? hend)

theorem getKeys_joinWith (h : PlainKeys keys) : getKeys json (joinWith "\n" keys) = keys := by
  obtain ⟨first, others, hkeys⟩ := exists_cons_of_ne_nil h.nonempty
  have hfirst : PlainKey first := h.plain first (by rw [hkeys]; exact mem_cons_self)
  obtain ⟨rest, hrest⟩ := exists_toList_joinWith_cons "\n" first others
  rw [← hkeys] at hrest
  have hne : joinWith "\n" keys ≠ "" := by
    intro hempty
    rw [hempty] at hrest
    exact hfirst.toList_ne_nil (append_eq_nil_iff.mp hrest.symm).1
  have hblank : ∀ a ∈ ([] : List Char), isSpace a = true := by simp
  have harray : hasPrefix (trimSpace (joinWith "\n" keys)) "[" = false :=
    (hasPrefix_trimSpace_append '[' hfirst.visible hblank hrest).trans hfirst.noArray
  unfold getKeys
  rw [if_neg hne]
  dsimp only
  rw [harray, if_neg Bool.false_ne_true, splitKeys, trimChar_joinWith h]
  exact split_joinWith h.nonempty fun key hkey => (h.plain key hkey).oneLine

theorem getKeys_saved (h : PlainKeys keys) (stored : String) :
    getKeys json (if joinWith "\n" keys ≠ "" then joinWith "\n" keys else stored) = keys := by
  have hjoined := getKeys_joinWith json h
  have hne : joinWith "\n" keys ≠ "" := by
    intro hempty
    rw [hempty, getKeys, if_pos rfl] at hjoined
    exact h.nonempty hjoined.symm
  rw [if_pos hne, hjoined]

end

/-! ## Saving -/

variable {json}

section

variable {stored channel : Channel} {keys : List String}

variable (hmulti : channel.channelInfo.isMultiKey = true)
  (htext : getKeys json (if channel.key ≠ "" then channel.key else stored.key) = keys)
include hmulti htext

theorem update_spec (hkeys : keys ≠ []) :
    (stored.update json channel).keys json = keys ∧
      (stored.update json channel).channelInfo.isMultiKey = true ∧
      (stored.update json channel).channelInfo.multiKeySize = keys.length ∧
      ∀ i, (stored.update json channel).channelInfo.multiKeyStatusList i =
        if i ≥ keys.length then none else channel.channelInfo.multiKeyStatusList i := by
  have hcounted := countedKeys_eq json (htext ▸ hkeys)
  rw [htext] at hcounted
  refine ⟨htext, ?_⟩
  unfold Channel.update
  dsimp only
  rw [if_pos hmulti, hcounted]
  exact ⟨hmulti, rfl, fun i => rfl⟩

private theorem wellFormed_update (hkeys : PlainKeys keys) :
    WellFormed json (stored.update json channel) := by
  obtain ⟨hnew, hmulti, hsize, hstatus⟩ := update_spec hmulti htext hkeys.nonempty
  refine ⟨hmulti, hnew ▸ hkeys, hnew ▸ hsize, fun i hi => ?_⟩
  rw [hnew] at hi
  rw [hstatus, if_pos hi]

private theorem status_update {i : Nat} {k : String} (hkeys : keys ≠ []) (hi : keys[i]? = some k) :
    (stored.update json channel).status i = channel.status i := by
  obtain ⟨-, -, -, hstatus⟩ := update_spec hmulti htext hkeys
  have hlt := (List.getElem?_eq_some_iff.mp hi).1
  unfold Channel.status
  rw [hstatus, if_neg (by omega)]

end

variable {i j : Nat} {k : String} {r : Remaining}

variable (json)

theorem WellFormed.key_ne_empty {channel : Channel} (h : WellFormed json channel) :
    channel.key ≠ "" := by
  intro hempty
  refine h.keys.nonempty ?_
  rw [Channel.keys, getKeys, if_pos hempty]

theorem index_unique {keys : List String} (h : keys.Nodup) (hi : keys[i]? = some k)
    (hj : keys[j]? = some k) : i = j :=
  (List.getElem?_inj (List.getElem?_eq_some_iff.mp hi).1 h).mp (hi.trans hj.symm)

def Sustains (before : Channel) (op : Operation) (after : Channel) : Prop :=
  WellFormed json after ∧ Follows json before op after

variable {channel : Channel} {op : Operation}

/-! ## Operations that keep the keys -/

variable {json}

theorem follows_refused (h : WellFormed json channel) {error : ManageError}
    (herror : handle json channel op = .error error)
    (hdue : ∀ i k, (channel.keys json)[i]? = some k →
      due op i (channel.status i) = channel.status i) :
    Sustains json channel op (step json channel op) := by
  have hstep : step json channel op = channel := by
    rw [step, herror]
  rw [hstep]
  refine ⟨h, fun i k hi _ => ⟨i, hi, (hdue i k hi).symm⟩,
    fun _ _ hj hk => absurd (mem_of_getElem? hj) hk, ?_, h.size, h.keys.distinct⟩
  rintro i k hi ⟨⟨after, hafter⟩, -⟩
  rw [herror] at hafter
  cases hafter

theorem sustains_update {next : Channel} {keys : List String}
    (hmulti : next.channelInfo.isMultiKey = true)
    (htext : getKeys json (if next.key ≠ "" then next.key else channel.key) = keys)
    (hplain : PlainKeys keys)
    (hkept : ∀ i k, (channel.keys json)[i]? = some k → k ∈ keys →
      ∃ j, keys[j]? = some k ∧ next.status j = due op i (channel.status i))
    (hadded : ∀ j k, keys[j]? = some k → k ∉ channel.keys json → next.status j = .enabled)
    (hdeleted : ∀ i k, (channel.keys json)[i]? = some k → ReportsDeleted json channel op i →
      k ∉ keys) : Sustains json channel op (channel.update json next) := by
  have hwf := wellFormed_update hmulti htext hplain
  have hkeys := (update_spec hmulti htext hplain.nonempty).1
  have hstatus {j k} := status_update (i := j) (k := k) hmulti htext hplain.nonempty
  refine ⟨hwf, ?_, ?_, by rwa [hkeys], hwf.size, hwf.keys.distinct⟩
  all_goals rw [hkeys]
  · intro i k hi hk
    obtain ⟨j, hj, hdue⟩ := hkept i k hi hk
    exact ⟨j, hj, (hstatus hj).trans hdue⟩
  · exact fun j k hj hk => (hstatus hj).trans (hadded j k hj hk)

theorem follows_statuses (h : WellFormed json channel) {next : Channel}
    (hkey : next.key = channel.key) (hmulti : next.channelInfo.isMultiKey = true)
    (hstatus : ∀ i k, (channel.keys json)[i]? = some k →
      next.status i = due op i (channel.status i))
    (hreports : ∀ i, ¬ ReportsDeleted json channel op i) :
    Sustains json channel op (channel.update json next) := by
  have htext : getKeys json (if next.key ≠ "" then next.key else channel.key) =
      channel.keys json := by
    rw [hkey, ite_self]
    rfl
  exact sustains_update hmulti htext h.keys (fun i k hi _ => ⟨i, hi, hstatus i k hi⟩)
    (fun _ _ hj hk => absurd (mem_of_getElem? hj) hk) fun i _ _ hreport =>
      absurd hreport (hreports i)

variable (json)

theorem checkedIndex_cases (h : WellFormed json channel) (keyIndex : Option Int) :
    (∃ i : Nat, keyIndex = some (i : Int) ∧ i < (channel.keys json).length ∧
        checkedIndex channel keyIndex = .ok i) ∨
      ((∃ error, checkedIndex channel keyIndex = .error error) ∧
        ∀ (i : Nat) (k : String), (channel.keys json)[i]? = some k →
          keyIndex ≠ some (i : Int)) := by
  cases keyIndex with
  | none => exact .inr ⟨⟨_, rfl⟩, fun _ _ _ hsome => by cases hsome⟩
  | some keyIndex =>
    unfold checkedIndex
    dsimp only
    rw [h.size]
    by_cases hrange : keyIndex < 0 ∨ keyIndex ≥ (channel.keys json).length
    · refine .inr ⟨⟨_, if_pos hrange⟩, fun i k hi hsome => ?_⟩
      have hlt := (List.getElem?_eq_some_iff.mp hi).1
      rw [Option.some.injEq] at hsome
      omega
    · refine .inl ⟨keyIndex.toNat, ?_, ?_, if_neg hrange⟩
      · rw [Int.toNat_of_nonneg (by omega)]
      · omega

variable {json}

theorem manageMultiKeys_eq (h : WellFormed json channel)
    (action : Channel → Except ManageError Channel) :
    manageMultiKeys action channel = action channel :=
  if_pos h.isMultiKey

theorem step_eq {next : Channel} (hok : handle json channel op = .ok next) :
    step json channel op = next := by
  rw [step, hok]

variable (json)

section

variable (h : WellFormed json channel)
include h

private theorem follows_at {keyIndex : Option Int} {set : Nat → Channel} {status : KeyStatus}
    (hhandle : handle json channel op =
      (checkedIndex channel keyIndex).bind fun i => .ok (channel.update json (set i)))
    (hdue : ∀ i old, due op i old = if keyIndex = some (i : Int) then status else old)
    (hkey : ∀ i, (set i).key = channel.key) (hmulti : ∀ i, (set i).channelInfo.isMultiKey = true)
    (hset : ∀ i j, (set i).status j = if j = i then status else channel.status j)
    (hreports : ∀ i, ¬ ReportsDeleted json channel op i) :
    Sustains json channel op (step json channel op) := by
  rcases checkedIndex_cases json h keyIndex with ⟨i, rfl, -, hindex⟩ | ⟨⟨error, herror⟩, hne⟩
  · rw [hindex] at hhandle
    rw [step_eq hhandle]
    refine follows_statuses h (hkey i) (hmulti i) (fun j k _ => ?_) hreports
    rw [hset, hdue]
    by_cases hj : j = i
    · rw [if_pos hj, if_pos (by rw [hj])]
    have hji : some (i : Int) ≠ some (j : Int) := by
      rw [ne_eq, Option.some.injEq]
      omega
    rw [if_neg hj, if_neg hji]
  · rw [herror] at hhandle
    refine follows_refused h hhandle fun i k hi => ?_
    rw [hdue, if_neg (hne i k hi)]

theorem keyIndex_follows {op : Operation} {keyIndex : Option Int}
    (hop : op = .disableKey keyIndex ∨ op = .enableKey keyIndex) :
    Sustains json channel op (step json channel op) := by
  rcases hop with rfl | rfl
  all_goals
    refine follows_at json h (manageMultiKeys_eq h _) (fun _ _ => rfl) (fun _ => rfl)
      (fun _ => h.isMultiKey) (fun i j => ?_) fun _ hreport => hreport.2
    by_cases hj : j = i <;> simp [Channel.status, Channel.setStatusList, hj]

private theorem enableAllKeys_follows :
    Sustains json channel .enableAllKeys (step json channel .enableAllKeys) := by
  have hhandle : handle json channel .enableAllKeys = enableAllKeys json channel :=
    manageMultiKeys_eq h _
  rw [step_eq hhandle]
  exact follows_statuses h rfl h.isMultiKey (fun _ _ _ => rfl) fun _ hreport => hreport.2

end

private theorem foldl_disableAt (statusList : Nat → Option KeyStatus) (n : Nat) :
    (∀ i, ((List.range n).foldl disableAt (statusList, 0)).1 i =
      if i < n ∧ (statusList i).getD .enabled = .enabled then some .manuallyDisabled
      else statusList i) ∧
    (((List.range n).foldl disableAt (statusList, 0)).2 = 0 →
      ∀ i < n, (statusList i).getD .enabled ≠ .enabled) := by
  induction n with
  | zero => simp
  | succ n ih =>
    obtain ⟨hlist, hcount⟩ := ih
    have hn := hlist n
    rw [if_neg (by omega)] at hn
    rw [range_succ, foldl_append, foldl_cons, foldl_nil, disableAt, hn]
    by_cases henabled : (statusList n).getD .enabled = .enabled
    · rw [if_pos henabled]
      refine ⟨fun i => ?_, fun hzero => by cases hzero⟩
      by_cases hi : i = n
      · subst hi
        simp [henabled]
      · have hlt : i < n + 1 ↔ i < n := by omega
        dsimp only
        rw [update_of_ne hi, hlist]
        simp [hlt]
    · rw [if_neg henabled]
      refine ⟨fun i => ?_, fun hzero i hi => ?_⟩
      · rw [hlist]
        by_cases hi : i = n
        · subst hi
          simp [henabled]
        · have hlt : i < n + 1 ↔ i < n := by omega
          simp [hlt]
      · by_cases hin : i = n
        · rw [hin]
          exact henabled
        · exact hcount hzero i (by omega)

private theorem disableAllKeys_follows (h : WellFormed json channel) :
    Sustains json channel .disableAllKeys (step json channel .disableAllKeys) := by
  have hhandle : handle json channel .disableAllKeys = disableAllKeys json channel :=
    manageMultiKeys_eq h _
  obtain ⟨hlist, hcount⟩ := foldl_disableAt channel.channelInfo.multiKeyStatusList
    channel.channelInfo.multiKeySize
  unfold disableAllKeys at hhandle
  dsimp only at hhandle
  have hlt : ∀ {i k}, (channel.keys json)[i]? = some k → i < channel.channelInfo.multiKeySize := by
    intro i k hi
    rw [h.size]
    exact (List.getElem?_eq_some_iff.mp hi).1
  split at hhandle
  next hzero => exact follows_refused h hhandle fun i k hi => if_neg (hcount hzero i (hlt hi))
  next =>
    rw [step_eq hhandle]
    refine follows_statuses h rfl h.isMultiKey (fun i k hi => ?_) fun _ hreport => hreport.2
    unfold due Channel.status Channel.setStatusList
    dsimp only
    rw [hlist]
    by_cases henabled : (channel.channelInfo.multiKeyStatusList i).getD .enabled = .enabled
    · simp [henabled, hlt hi]
    · simp [henabled]

/-! ## Deleting keys -/

structure Aligned (info : ChannelInfo KeyStatus) (entries : List (String × Nat))
    (r : Remaining) : Prop where
  keys : r.keys = entries.map Prod.fst
  statuses : ∀ j, (r.statusList j).getD .enabled =
    ((entries[j]?).bind fun e => info.multiKeyStatusList e.2).getD .enabled

variable {info : ChannelInfo KeyStatus} {entries : List (String × Nat)}

theorem Aligned.add {r' : Remaining} (h : Aligned info entries r) {e : String × Nat}
    (hkeys : r'.keys = r.keys ++ [e.1])
    (hnew : (r'.statusList r.keys.length).getD .enabled =
      (info.multiKeyStatusList e.2).getD .enabled)
    (hold : ∀ j ≠ r.keys.length, r'.statusList j = r.statusList j) :
    Aligned info (entries ++ [e]) r' := by
  have hlength : r.keys.length = entries.length := by
    rw [h.keys, length_map]
  refine ⟨by rw [hkeys, h.keys, map_append]; rfl, fun j => ?_⟩
  by_cases hj : j = r.keys.length
  · rw [hj, hnew, hlength, List.getElem?_concat_length]
    rfl
  · rw [hold j hj, h.statuses]
    by_cases hlt : j < entries.length
    · rw [List.getElem?_append_left hlt]
    · rw [List.getElem?_eq_none (by omega),
        List.getElem?_eq_none (by rw [length_append, length_singleton]; omega)]

theorem foldl_aligned {skip : Remaining → String × Nat → Remaining} {keep : String × Nat → Bool}
    (hkeep : ∀ r entries e, keep e = true → Aligned info entries r →
      Aligned info (entries ++ [e]) (skip r e)) (hdrop : ∀ r e, keep e = false → skip r e = r)
    (l : List (String × Nat)) (h : Aligned info entries r) :
    Aligned info (entries ++ l.filter keep) (l.foldl skip r) := by
  induction l generalizing entries r with
  | nil =>
    rw [filter_nil, append_nil]
    exact h
  | cons e l ih =>
    rw [foldl_cons]
    cases hcase : keep e with
    | true =>
      rw [filter_cons_of_pos hcase, ← singleton_append, ← append_assoc]
      exact ih (hkeep r entries e hcase h)
    | false =>
      rw [filter_cons_of_neg (by simp [hcase]), hdrop r e hcase]
      exact ih h

theorem copyTo_other {β : Type} (target : Nat → Option β) {newIndex : Nat} (hj : j ≠ newIndex)
    (value : Option β) : copyTo target newIndex value j = target j := by
  cases value with
  | none => rfl
  | some => exact update_of_ne hj _ _

theorem Aligned.fresh (h : Aligned info entries r) :
    (r.statusList r.keys.length).getD .enabled = .enabled := by
  rw [h.statuses, h.keys, length_map, List.getElem?_eq_none (Nat.le_refl _)]
  rfl

private theorem aligned_skipIndex (info : ChannelInfo KeyStatus) (keyIndex : Nat)
    (l : List (String × Nat)) :
    Aligned info (l.filter fun e => e.2 ≠ keyIndex)
      (l.foldl (Remaining.skipIndex info keyIndex) {}) := by
  have hstart : Aligned info [] {} := ⟨rfl, fun _ => rfl⟩
  refine foldl_aligned (fun r entries e hkeep h => ?_) (fun r e hdrop => ?_) l hstart
  · have hne : e.2 ≠ keyIndex := by simpa using hkeep
    unfold Remaining.skipIndex
    rw [if_neg hne]
    refine h.add rfl ?_ fun j hj => copyTo_other _ hj _
    dsimp only
    cases hstatus : info.multiKeyStatusList e.2 with
    | none => exact h.fresh
    | some status =>
      by_cases henabled : status = .enabled
      · simpa [henabled, Option.filter, copyTo] using h.fresh
      · simp [henabled, Option.filter, copyTo]
  · have heq : e.2 = keyIndex := by simpa using hdrop
    unfold Remaining.skipIndex
    rw [if_pos heq]

private theorem aligned_skipAutoDisabled (info : ChannelInfo KeyStatus) (l : List (String × Nat)) :
    Aligned info
      (l.filter fun e => (info.multiKeyStatusList e.2).getD .enabled ≠ .autoDisabled)
      (l.foldl (Remaining.skipAutoDisabled info) {}) := by
  have hstart : Aligned info [] {} := ⟨rfl, fun _ => rfl⟩
  refine foldl_aligned (fun r entries e hkeep h => ?_) (fun r e hdrop => ?_) l hstart
  · have hne : (info.multiKeyStatusList e.2).getD .enabled ≠ .autoDisabled := by simpa using hkeep
    unfold Remaining.skipAutoDisabled
    cases hstatus : (info.multiKeyStatusList e.2).getD .enabled with
    | enabled => exact h.add rfl (h.fresh.trans hstatus.symm) fun _ _ => rfl
    | manuallyDisabled =>
      refine h.add rfl ?_ fun j hj => copyTo_other r.statusList hj (some .manuallyDisabled)
      simp [copyTo, hstatus]
    | autoDisabled => exact absurd hstatus hne
  · have heq : (info.multiKeyStatusList e.2).getD .enabled = .autoDisabled := by
      simpa using hdrop
    unfold Remaining.skipAutoDisabled
    rw [heq]

section

variable (h : WellFormed json channel)
include h

theorem follows_remaining {keep : String × Nat → Bool}
    (haligned : Aligned channel.channelInfo ((channel.keys json).zipIdx.filter keep) r)
    (hne : r.keys ≠ []) (hdue : ∀ i status, due op i status = status)
    (hreports : ∀ i k, ReportsDeleted json channel op i → keep (k, i) = false) :
    Sustains json channel op (channel.update json (channel.setRemaining r)) := by
  have hsub : r.keys.Sublist (channel.keys json) := by
    rw [haligned.keys]
    have hmap := (filter_sublist (p := keep) (l := (channel.keys json).zipIdx)).map Prod.fst
    rwa [zipIdx_map_fst] at hmap
  have hplain : PlainKeys r.keys :=
    ⟨hne, fun key hkey => h.keys.plain key (hsub.subset hkey), h.keys.distinct.sublist hsub⟩
  -- a key that remains is the one at its old position
  have hentry : ∀ i k, (channel.keys json)[i]? = some k → k ∈ r.keys →
      (k, i) ∈ (channel.keys json).zipIdx.filter keep := by
    intro i k hi hk
    rw [haligned.keys] at hk
    obtain ⟨e, he, rfl⟩ := mem_map.mp hk
    have hold := mem_zipIdx_iff_getElem?.mp (mem_filter.mp he).1
    rw [index_unique h.keys.distinct hi hold]
    exact he
  refine sustains_update h.isMultiKey (getKeys_saved json hplain channel.key) hplain
    (fun i k hi hk => ?_) (fun j k hj hk => absurd (hsub.subset (mem_of_getElem? hj)) hk)
    fun i k hi hreport hk => ?_
  · obtain ⟨j, hj⟩ := mem_iff_getElem?.mp (hentry i k hi hk)
    have hnew : r.keys[j]? = some k := by
      rw [haligned.keys, List.getElem?_map, hj]
      rfl
    have hstatus := haligned.statuses j
    rw [hj] at hstatus
    exact ⟨j, hnew, hstatus.trans (hdue i _).symm⟩
  · have hkept := (mem_filter.mp (hentry i k hi hk)).2
    rw [hreports i k hreport] at hkept
    cases hkept

private theorem deleteKey_follows (keyIndex : Option Int) :
    Sustains json channel (.deleteKey keyIndex) (step json channel (.deleteKey keyIndex)) := by
  have hhandle : handle json channel (.deleteKey keyIndex) = deleteKey json keyIndex channel :=
    manageMultiKeys_eq h _
  unfold deleteKey at hhandle
  rcases checkedIndex_cases json h keyIndex with ⟨i, rfl, -, hindex⟩ | ⟨⟨error, herror⟩, -⟩
  · have haligned := aligned_skipIndex channel.channelInfo i (channel.keys json).zipIdx
    rw [hindex] at hhandle
    by_cases hlast : ((getKeys json channel.key).zipIdx.foldl
        (Remaining.skipIndex channel.channelInfo i) {}).keys.length = 0
    · refine follows_refused h (hhandle.trans (if_pos hlast)) fun _ _ _ => rfl
    rw [step_eq (hhandle.trans (if_neg hlast))]
    refine follows_remaining json h haligned (fun hnil => hlast ?_) (fun _ _ => rfl)
      fun j k hreport => ?_
    · rw [length_eq_zero_iff]
      exact hnil
    · have hsome : some (i : Int) = some (j : Int) := hreport.2
      simp only [Option.some.injEq, Int.natCast_inj] at hsome
      simp [hsome]
  · rw [herror] at hhandle
    exact follows_refused h hhandle fun _ _ _ => rfl

private theorem deleteDisabledKeys_follows (hregular : Regular json channel .deleteDisabledKeys) :
    Sustains json channel .deleteDisabledKeys (step json channel .deleteDisabledKeys) := by
  have hhandle : handle json channel .deleteDisabledKeys = deleteDisabledKeys json channel :=
    manageMultiKeys_eq h _
  unfold deleteDisabledKeys at hhandle
  have haligned := aligned_skipAutoDisabled channel.channelInfo (channel.keys json).zipIdx
  by_cases hcount : deletedCount json channel = 0
  · exact follows_refused h (hhandle.trans (if_pos hcount)) fun _ _ _ => rfl
  rw [step_eq (hhandle.trans (if_neg hcount))]
  refine follows_remaining json h haligned ?_ (fun _ _ => rfl) fun j k hreport => ?_
  · obtain ⟨i, k, hi, hstatus⟩ := hregular
    have hmem : (k, i) ∈ (channel.keys json).zipIdx.filter fun e =>
        (channel.channelInfo.multiKeyStatusList e.2).getD .enabled ≠ .autoDisabled :=
      mem_filter.mpr ⟨mem_zipIdx_iff_getElem?.mpr hi, by simpa [Channel.status] using hstatus⟩
    intro hnil
    have hkeys := haligned.keys.symm.trans hnil
    rw [map_eq_nil_iff] at hkeys
    rw [hkeys] at hmem
    cases hmem
  · have hauto : channel.status j = .autoDisabled := hreport.2
    unfold Channel.status at hauto
    simp [hauto]

end

/-! ## Adding and replacing keys -/

private theorem hasPrefix_of_splitKeys {key : String} (h : PlainKeys (splitKeys key)) :
    hasPrefix (trimSpace key) "[" = false := by
  obtain ⟨first, others, hsplit⟩ := exists_cons_of_ne_nil h.nonempty
  have hfirst : PlainKey first := h.plain first (by rw [hsplit]; exact mem_cons_self)
  obtain ⟨blank, after, hkey, hblank, -⟩ := exists_trimChar '\n' key
  obtain ⟨rest, hrest⟩ := exists_toList_joinWith_cons "\n" first others
  have hjoin : joinWith "\n" (first :: others) = trimChar '\n' key := by
    rw [← hsplit]
    exact joinWith_split '\n' (trimChar '\n' key)
  rw [← hjoin, hrest, append_assoc] at hkey
  have hspace : ∀ a ∈ blank, isSpace a = true := by
    intro a ha
    rw [hblank a ha]
    rfl
  exact (hasPrefix_trimSpace_append '[' hfirst.visible hspace hkey).trans hfirst.noArray

private theorem existingKeys_eq (h : WellFormed json channel) :
    existingKeys json channel.key = channel.keys json := by
  have hne := h.key_ne_empty json
  have hkeys := h.keys
  unfold Channel.keys getKeys at hkeys ⊢
  rw [if_neg hne] at hkeys ⊢
  dsimp only at hkeys ⊢
  unfold existingKeys
  by_cases harray : hasPrefix (trimSpace channel.key) "[" = true
  · rw [if_pos harray] at hkeys ⊢
    rw [if_pos harray]
    cases hraw : json.rawMessages (trimSpace channel.key) with
    | some => rfl
    | none =>
      -- the first line would be a key that looks like an array
      rw [hraw] at hkeys
      exact absurd harray (by rw [hasPrefix_of_splitKeys hkeys]; simp)
  · rw [if_neg harray, if_neg harray]

private theorem addNewKey_cases (keys : List String × List String) (key : String) :
    addNewKey keys key = keys ∨
      (trimSpace key ≠ "" ∧ trimSpace key ∉ keys.1 ∧
        addNewKey keys key = (trimSpace key :: keys.1, keys.2 ++ [trimSpace key])) := by
  unfold addNewKey
  dsimp only
  split
  · exact .inl rfl
  split
  · exact .inl rfl
  · exact .inr ⟨‹_›, ‹_›, rfl⟩

/-- The variables of the loop over the new keys: what was kept is distinct, trimmed and not
among the existing keys. -/
structure Deduped (existing new : List String) (keys : List String × List String) : Prop where
  known : ∀ k ∈ existing, k ∈ keys.1
  seen : ∀ k ∈ keys.2, k ∈ keys.1
  distinct : keys.2.Nodup
  fresh : ∀ k ∈ keys.2, k ∉ existing
  made : ∀ k ∈ keys.2, ∃ key ∈ new, k = trimSpace key ∧ k ≠ ""

theorem Deduped.next {existing new : List String} {keys : List String × List String}
    (h : Deduped existing new keys) {key : String} (hkey : key ∈ new) :
    Deduped existing new (addNewKey keys key) := by
  rcases addNewKey_cases keys key with hsame | ⟨hvisible, hunseen, hadd⟩
  · rw [hsame]
    exact h
  rw [hadd]
  constructor
  · exact fun k hk => mem_cons_of_mem _ (h.known k hk)
  · refine forall_mem_append.mpr ⟨fun k hk => ?_, ?_⟩
    · exact mem_cons_of_mem _ (h.seen k hk)
    · simp
  · refine List.Nodup.append h.distinct (nodup_singleton _) ?_
    intro k hk hk'
    rw [mem_singleton.mp hk'] at hk
    exact hunseen (h.seen _ hk)
  · refine forall_mem_append.mpr ⟨h.fresh, forall_mem_singleton.mpr ?_⟩
    exact fun hmem => hunseen (h.known _ hmem)
  · refine forall_mem_append.mpr ⟨h.made, forall_mem_singleton.mpr ?_⟩
    exact ⟨key, hkey, rfl, hvisible⟩

private theorem deduped_foldl (existing new : List String) :
    Deduped existing new (new.foldl addNewKey (existing, [])) := by
  have hstart : Deduped existing new (existing, []) :=
    ⟨fun _ hk => hk, by simp, nodup_nil, by simp, by simp⟩
  exact List.foldlRecOn new addNewKey hstart fun _ h _ hkey => h.next hkey

private theorem dedupedNewKeys_spec (existing new : List String) :
    (∀ k ∈ dedupedNewKeys existing new, ∃ key ∈ new, k = trimSpace key ∧ k ≠ "") ∧
      (dedupedNewKeys existing new).Nodup ∧
      ∀ k ∈ dedupedNewKeys existing new, k ∉ existing := by
  have h := deduped_foldl ((existing.map trimSpace).filter fun key => key ≠ "") new
  refine ⟨h.made, h.distinct, fun k hk hold => h.fresh k hk ?_⟩
  obtain ⟨key, -, rfl, hne⟩ := h.made k hk
  exact mem_filter.mpr ⟨mem_map.mpr ⟨_, hold, trimSpace_idem key⟩, by simpa using hne⟩

section

variable (h : WellFormed json channel)
include h

theorem follows_text (request : PatchChannel) {text : String} {keys : List String}
    (hplain : PlainKeys keys)
    (htext : getKeys json (if text ≠ "" then text else channel.key) = keys)
    (hstay : DisabledStay json channel keys) :
    Sustains json channel (.updateChannel request)
      (channel.update json { channel with key := text }) := by
  refine sustains_update h.isMultiKey htext hplain (fun i k hi hk => ?_) (fun j k hj hk => ?_)
    fun _ _ _ hreport => hreport.2.elim
  · by_cases henabled : channel.status i = .enabled
    · obtain ⟨j, hj⟩ := mem_iff_getElem?.mp hk
      refine ⟨j, hj, ?_⟩
      by_contra hne
      have hdisabled : channel.status j ≠ .enabled := fun heq => hne (heq.trans henabled.symm)
      have hij := index_unique h.keys.distinct hi (hstay.position j k hj hdisabled)
      rw [hij] at henabled
      exact hdisabled henabled
    · exact ⟨i, hstay.key i k hi hk henabled, rfl⟩
  · by_contra hdisabled
    exact hk (mem_of_getElem? (hstay.position j k hj hdisabled))

theorem disabledStay_append (new : List String) :
    DisabledStay json channel (channel.keys json ++ new) := by
  refine ⟨fun i k hi hdisabled => ?_, fun i k hi _ _ => ?_⟩
  · have hlt : i < (channel.keys json).length := by
      by_contra hge
      refine hdisabled ?_
      rw [Channel.status, h.inRange i (by omega)]
      rfl
    rwa [List.getElem?_append_left hlt] at hi
  · rw [List.getElem?_append_left (List.getElem?_eq_some_iff.mp hi).1]
    exact hi

private theorem append_follows {request : PatchChannel} (hmode : request.keyMode = some .append)
    (hplainNew : ∀ new, newKeys json request = .ok new →
      ∀ key ∈ new, trimSpace key ≠ "" → PlainKey (trimSpace key)) :
    Sustains json channel (.updateChannel request)
      (step json channel (.updateChannel request)) := by
  have hhandle : handle json channel (.updateChannel request) =
      updateChannel json request channel := rfl
  unfold updateChannel appendKeys at hhandle
  rw [if_pos ⟨hmode, h.isMultiKey⟩, if_pos (h.key_ne_empty json), existingKeys_eq json h]
    at hhandle
  cases hnew : newKeys json request with
  | error =>
    rw [hnew] at hhandle
    exact follows_refused h hhandle fun _ _ _ => rfl
  | ok new =>
    rw [hnew] at hhandle
    rw [step_eq hhandle]
    obtain ⟨hmade, hnodup, hfresh⟩ := dedupedNewKeys_spec (channel.keys json) new
    have hplain : PlainKeys (channel.keys json ++ dedupedNewKeys (channel.keys json) new) := by
      refine ⟨fun hnil => h.keys.nonempty (append_eq_nil_iff.mp hnil).1,
        fun key hkey => ?_, List.Nodup.append h.keys.distinct hnodup
          fun k hold hk => hfresh k hk hold⟩
      rcases mem_append.mp hkey with hkey | hkey
      · exact h.keys.plain key hkey
      · obtain ⟨key', hkey', rfl, hne⟩ := hmade key hkey
        exact hplainNew new hnew key' hkey' hne
    exact follows_text json h request hplain (getKeys_saved json hplain channel.key)
      (disabledStay_append json h _)

private theorem replace_follows {request : PatchChannel} (hmode : request.keyMode ≠ some .append)
    (hstay : request.key = "" ∨ (PlainKeys (getKeys json request.key) ∧
      DisabledStay json channel (getKeys json request.key))) :
    Sustains json channel (.updateChannel request)
      (step json channel (.updateChannel request)) := by
  have hhandle : handle json channel (.updateChannel request) =
      updateChannel json request channel := rfl
  unfold updateChannel at hhandle
  rw [if_neg fun happend => hmode happend.1] at hhandle
  rw [step_eq hhandle]
  rcases hstay with hempty | ⟨hplain, hstay⟩
  · rw [hempty]
    refine follows_text json h request h.keys rfl ?_
    have happend := disabledStay_append json h []
    rwa [append_nil] at happend
  · have hne : request.key ≠ "" := by
      intro hempty
      refine hplain.nonempty ?_
      rw [getKeys, if_pos hempty]
    exact follows_text json h request hplain (by rw [if_pos hne]) hstay

private theorem step_follows (op : Operation) (hregular : Regular json channel op) :
    Sustains json channel op (step json channel op) := by
  cases op with
  | updateChannel request =>
    unfold Regular at hregular
    dsimp only at hregular
    by_cases hmode : request.keyMode = some .append
    · rw [if_pos hmode] at hregular
      exact append_follows json h hmode hregular
    · rw [if_neg hmode] at hregular
      exact replace_follows json h hmode hregular
  | disableKey keyIndex => exact keyIndex_follows json h (.inl rfl)
  | enableKey keyIndex => exact keyIndex_follows json h (.inr rfl)
  | enableAllKeys => exact enableAllKeys_follows json h
  | disableAllKeys => exact disableAllKeys_follows json h
  | deleteKey keyIndex => exact deleteKey_follows json h keyIndex
  | deleteDisabledKeys => exact deleteDisabledKeys_follows json h hregular

end

/-- In every run of regular operations, the status follows the key at each of
them. -/
theorem key_status_follows (h : WellFormed json channel) {ops : List Operation}
    (hops : Admits (step json) (Regular json) channel ops) :
    Admits (step json) (fun before op => Follows json before op (step json before op))
      channel ops :=
  hops.steps (WellFormed json) (fun _ op hwf hregular => step_follows json hwf op hregular) h

end

/-! ## Two keys -/

def noArrays : JsonArrays where
  rawMessages _ := none
  values _ := none

def twoKeys : Channel where
  key := "sk-a\nsk-b"
  channelInfo :=
    { isMultiKey := true
      multiKeySize := 2
      multiKeyStatusList := fun i => if i = 0 then some .manuallyDisabled else none }

/-- A key is added, the disabled key is deleted and the others are disabled. -/
theorem key_status_follows_twoKeys :
    Admits (step noArrays)
      (fun before op => Follows noArrays before op (step noArrays before op)) twoKeys
      [.updateChannel { key := " sk-c\nsk-a", keyMode := some .append }, .deleteKey (some 0),
        .disableAllKeys] := by
  have hkeys : twoKeys.keys noArrays = ["sk-a", "sk-b"] := by decide
  have hplain : ∀ key ∈ ["sk-a", "sk-b", "sk-c"], PlainKey key := by
    intro key hkey
    have hcases : key = "sk-a" ∨ key = "sk-b" ∨ key = "sk-c" := by simpa using hkey
    rcases hcases with rfl | rfl | rfl <;> exact ⟨by decide, by decide, by decide⟩
  refine key_status_follows noArrays ⟨rfl, ⟨?_, ?_, ?_⟩, ?_, ?_⟩ ⟨?_, trivial, trivial, trivial⟩
  · rw [hkeys]
    decide
  · rw [hkeys]
    intro key hkey
    exact hplain key (by simp at hkey ⊢; tauto)
  · rw [hkeys]
    decide
  · rw [hkeys]
    rfl
  · intro i hi
    rw [hkeys] at hi
    exact if_neg (by simp at hi; omega)
  · intro new hnew key hkey _
    have hall : (Except.ok ["sk-c", "sk-a"] : Except ManageError (List String)) = .ok new := hnew
    rw [← Except.ok.inj hall] at hkey
    have hcases : key = "sk-c" ∨ key = "sk-a" := by simpa using hkey
    rcases hcases with rfl | rfl
    · exact hplain "sk-c" (by decide)
    · exact hplain "sk-a" (by decide)

def bothDisabled : Channel where
  key := "sk-a\nsk-b"
  channelInfo :=
    { isMultiKey := true
      multiKeySize := 2
      multiKeyStatusList := fun i => if i < 2 then some .autoDisabled else none }

/-- A key that replaces a disabled one is disabled; and if all keys are to be
deleted, they stay and are enabled. -/
theorem statuses_follow_positions :
    (step noArrays twoKeys
        (.updateChannel { key := "sk-c\nsk-a", keyMode := some .replace })).keys noArrays =
      ["sk-c", "sk-a"] ∧
    (step noArrays twoKeys
        (.updateChannel { key := "sk-c\nsk-a", keyMode := some .replace })).status 0 =
      .manuallyDisabled ∧
    (step noArrays twoKeys
        (.updateChannel { key := "sk-c\nsk-a", keyMode := some .replace })).status 1 = .enabled ∧
    deletedCount noArrays bothDisabled = 2 ∧
    (step noArrays bothDisabled .deleteDisabledKeys).keys noArrays = ["sk-a", "sk-b"] ∧
    (step noArrays bothDisabled .deleteDisabledKeys).status 0 = .enabled := by
  decide

end NewApi.Channels
