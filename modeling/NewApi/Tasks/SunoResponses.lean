import NewApi.Tasks.Dispatch

/-!
# Suno responses

`updateSunoTasks` of `service/task_polling.go` with its early returns.  The items of a
response are looked up in the map of the polled tasks, and the first item that is not
there is a nil task that `taskNeedsUpdate` reads.
-/

namespace NewApi.Tasks

open Foundation List

structure SunoFetch where
  cacheGetChannel : Except String Unit := .ok ()
  taskBulkUpdateByID : Except String Unit := .ok ()
  adaptor : Bool := true
  fetchTask : Except String Int := .ok 200
  readAll : Except String Unit := .ok ()
  /-- Whether the response says that it is one of success, and its items. -/
  unmarshal : Except String (Bool × List (SunoDataResponse × SunoAnswers))

/-- How the function ends: with an error or without, or at a nil task. -/
inductive SunoEnd where
  | returned (error : Option String)
  | nilTask (taskID : String)
  deriving DecidableEq

def sunoLoop (taskM : String → Option Nat) : List (SunoDataResponse × SunoAnswers) → SunoEnd
  | [] => .returned none
  | (item, _) :: rest =>
    match taskM item.taskID with
    | none => .nilTask item.taskID
    | some _ => sunoLoop taskM rest

def updateSunoChannel (taskM : String → Option Nat) (channel : Int × List String)
    (fetch : SunoFetch) : List Event × SunoEnd :=
  if channel.2 = [] then ([], .returned none)
  else
    match fetch.cacheGetChannel with
    | .error _ =>
      match fetch.taskBulkUpdateByID with
      | .error e =>
        ([.bulkFail (channel.2.filterMap taskM) (.sunoChannel channel.1) false], .returned (some e))
      | .ok () =>
        ([.bulkFail (channel.2.filterMap taskM) (.sunoChannel channel.1) true], .returned none)
    | .ok () =>
      if fetch.adaptor = false then ([], .returned (some "adaptor not found"))
      else
        match fetch.fetchTask with
        | .error e => ([], .returned (some e))
        | .ok code =>
          if code ≠ 200 then
            ([], .returned (some ("Get Task status code: " ++ toString code)))
          else
            match fetch.readAll, fetch.unmarshal with
            | .error e, _ => ([], .returned (some e))
            | .ok (), .error e => ([], .returned (some e))
            | .ok (), .ok (false, _) => ([], .returned none)
            | .ok (), .ok (true, items) => (updateSunoTasks taskM items, sunoLoop taskM items)

def SunoFetch.items (fetch : SunoFetch) : Option (List (SunoDataResponse × SunoAnswers)) :=
  match fetch.cacheGetChannel, fetch.fetchTask, fetch.readAll, fetch.unmarshal with
  | .ok (), .ok 200, .ok (), .ok (true, items) => if fetch.adaptor = true then some items else none
  | _, _, _, _ => none

section

variable {taskM : String → Option Nat} {channel : Int × List String} {fetch : SunoFetch}

theorem updateSunoChannel_of_items {items : List (SunoDataResponse × SunoAnswers)}
    (hasked : channel.2 ≠ []) (h : fetch.items = some items) :
    updateSunoChannel taskM channel fetch =
      (updateSunoTasks taskM items, sunoLoop taskM items) := by
  obtain ⟨cacheGetChannel, bulk, adaptor, fetchTask, readAll, unmarshal⟩ := fetch
  unfold SunoFetch.items at h
  dsimp only at h
  split at h
  · split at h
    · next hadaptor =>
      cases h
      simp [updateSunoChannel, hasked, hadaptor]
    · cases h
  · cases h

private theorem returned_of_no_items (h : fetch.items = none) (id : String) :
    (updateSunoChannel taskM channel fetch).2 ≠ .nilTask id := by
  intro hreturned
  unfold updateSunoChannel at hreturned
  repeat' split at hreturned
  all_goals simp_all [SunoFetch.items]

private theorem sunoLoop_eq_nilTask_iff (taskM : String → Option Nat)
    (items : List (SunoDataResponse × SunoAnswers)) :
    (∃ id, sunoLoop taskM items = .nilTask id) ↔ ∃ item ∈ items, taskM item.1.taskID = none := by
  induction items with
  | nil => simp [sunoLoop]
  | cons item items ih =>
    obtain ⟨item, answers⟩ := item
    unfold sunoLoop
    cases hfound : taskM item.taskID with
    | none => simp [hfound]
    | some => simpa [hfound] using ih

private theorem never_nilTask_iff (hasked : channel.2 ≠ []) :
    (∀ id, (updateSunoChannel taskM channel fetch).2 ≠ .nilTask id) ↔
      ∀ items, fetch.items = some items → ∀ item ∈ items, taskM item.1.taskID ≠ none := by
  cases hitems : fetch.items with
  | none =>
    constructor
    · intro _ items h
      cases h
    · intro _ id
      exact returned_of_no_items hitems id
  | some items =>
    have hnil := sunoLoop_eq_nilTask_iff taskM items
    rw [updateSunoChannel_of_items hasked hitems]
    constructor
    · intro h other heq item hitem hmissing
      cases heq
      obtain ⟨id, hid⟩ := hnil.mpr ⟨item, hitem, hmissing⟩
      exact h id hid
    · intro h id hid
      obtain ⟨item, hitem, hmissing⟩ := hnil.mp ⟨id, hid⟩
      exact h items rfl item hitem hmissing

end

structure Beside (j : Nat) (s s' : System) : Prop where
  objects : ∀ k ≠ j, s'.objects k = s.objects k
  keys : ∀ o', s'.objects j = some o' → ∃ o, s.objects j = some o ∧ o'.task.id = o.task.id
  rows : ∀ id, (∀ o, s.objects j = some o → o.task.id ≠ id) → s'.rows.row id = s.rows.row id

theorem Beside.refl (j : Nat) (s : System) : Beside j s s where
  objects := fun _ _ => rfl
  keys := fun o ho => ⟨o, ho, rfl⟩
  rows := fun _ _ => rfl

variable (env : Env)

theorem beside_sunoVisit (s : System) (j : Nat) (item : SunoDataResponse) (answers : QuotaAnswers) :
    Beside j s (step env s (.sunoVisit j item answers)) := by
  have htrans := step_transition env s (.sunoVisit j item answers)
  generalize step env s (.sunoVisit j item answers) = s' at htrans ⊢
  cases htrans with
  | idle => exact Beside.refl j s
  | sunoVisit _ _ _ o ho =>
    constructor
    · intro k hk
      exact Function.update_of_ne hk _ _
    · intro o' ho'
      rcases update_some_eq_some_iff.mp ho' with ⟨-, rfl⟩ | ⟨hne, -⟩
      · exact ⟨o, ho, (sunoUpdated_spec o.task item).1.id⟩
      · exact absurd rfl hne
    · intro id _
      rfl

private theorem beside_sunoSave (s : System) (j : Nat) (ok : Bool) :
    Beside j s (step env s (.sunoSave j ok)) := by
  have htrans := step_transition env s (.sunoSave j ok)
  generalize step env s (.sunoSave j ok) = s' at htrans ⊢
  cases htrans with
  | idle => exact Beside.refl j s
  | sunoSave _ _ o ho =>
    constructor
    · intro k hk
      exact Function.update_of_ne hk _ _
    · intro o' ho'
      rcases update_some_eq_some_iff.mp ho' with ⟨-, rfl⟩ | ⟨hne, -⟩
      · exact ⟨o, ho, rfl⟩
      · exact absurd rfl hne
    · intro id hid
      simp only [System.sunoSave, update]
      split
      · exact TaskTable.put_row_ne _ _ (Ne.symm (hid o ho))
      · rfl

structure Spared (visited : Nat → Prop) (id : Int) (s s' : System) : Prop where
  objects : ∀ k, ¬ visited k → s'.objects k = s.objects k
  rows : s'.rows.row id = s.rows.row id
  /-- The visited objects still do not hold the row. -/
  keys : ∀ j, visited j → ∀ o, s'.objects j = some o → o.task.id ≠ id

variable {s : System} {j : Nat} {tasks : List Task} {entry : Task × Nat}
  {visited : Nat → Prop} {id : Int} {items : List (SunoDataResponse × SunoAnswers)}
  {loaded : List (Task × Nat)} {g : Grouping} {other : Task × Nat}

theorem Beside.spared {s' : System} (h : Beside j s s') (hj : visited j)
    (hkeys : ∀ j, visited j → ∀ o, s.objects j = some o → o.task.id ≠ id) :
    Spared visited id s s' where
  objects := by
    intro k hk
    apply h.objects
    rintro rfl
    exact hk hj
  rows := h.rows id (hkeys j hj)
  keys := by
    intro k hk o ho
    by_cases hkj : k = j
    · subst hkj
      obtain ⟨old, hold, hid⟩ := h.keys o ho
      rw [hid]
      exact hkeys k hk old hold
    · rw [h.objects k hkj] at ho
      exact hkeys k hk o ho

theorem Spared.trans {s' s'' : System} (h : Spared visited id s s')
    (h' : Spared visited id s' s'') : Spared visited id s s'' where
  objects := fun k hk => (h'.objects k hk).trans (h.objects k hk)
  rows := h'.rows.trans h.rows
  keys := h'.keys

private theorem spared_updateSunoTasks {taskM : String → Option Nat}
    (hvisited : ∀ item ∈ items, ∀ j, taskM item.1.taskID = some j → visited j)
    (hkeys : ∀ j, visited j → ∀ o, s.objects j = some o → o.task.id ≠ id) :
    Spared visited id s (run (step env) s (updateSunoTasks taskM items)) := by
  induction items generalizing s with
  | nil => exact ⟨fun _ _ => rfl, rfl, hkeys⟩
  | cons item items ih =>
    obtain ⟨item, answers⟩ := item
    obtain ⟨hfirst, hrest⟩ := forall_mem_cons.mp hvisited
    unfold updateSunoTasks
    cases hfound : taskM item.taskID with
    | none => exact ⟨fun _ _ => rfl, rfl, hkeys⟩
    | some j =>
      have hj := hfirst j hfound
      have hvisit := (beside_sunoVisit env s j item answers.quota).spared hj hkeys
      have hsave := (beside_sunoSave env _ j answers.saved).spared hj hvisit.keys
      have hthere := hvisit.trans hsave
      exact hthere.trans (ih hrest hthere.keys)

theorem taskM_add (g : Grouping) (loaded : Task × Nat) (id : String) :
    (g.add loaded).taskM id =
      if loaded.1.getUpstreamTaskID ≠ "" ∧ loaded.1.getUpstreamTaskID = id then some loaded.2
      else g.taskM id := by
  by_cases hempty : loaded.1.getUpstreamTaskID = ""
  · rw [Grouping.add, if_pos hempty, if_neg (fun h => h.1 hempty)]
  rw [Grouping.add, if_neg hempty]
  by_cases hid : loaded.1.getUpstreamTaskID = id
  · rw [if_pos ⟨hempty, hid⟩, ← hid]
    exact Function.update_self _ _ _
  · rw [if_neg (fun h => hid h.2)]
    exact Function.update_of_ne (Ne.symm hid) _ _

theorem taskM_foldl_some {id : String} (h : (loaded.foldl Grouping.add g).taskM id = some j) :
    g.taskM id = some j ∨ ∃ entry ∈ loaded, entry.1.getUpstreamTaskID = id ∧ entry.2 = j := by
  induction loaded generalizing g with
  | nil => exact .inl h
  | cons first loaded ih =>
    rcases ih h with hfirst | ⟨entry, hentry, heq⟩
    · rw [taskM_add] at hfirst
      split at hfirst
      · next hid => exact .inr ⟨first, mem_cons_self, hid.2, Option.some.inj hfirst⟩
      · exact .inl hfirst
    · exact .inr ⟨entry, mem_cons_of_mem _ hentry, heq⟩

private theorem taskM_groupTasks_some {id : String} (h : (groupTasks tasks).taskM id = some j) :
    ∃ entry ∈ tasks.zipIdx, entry.1.getUpstreamTaskID = id ∧ entry.2 = j := by
  rcases taskM_foldl_some h with hempty | hentry
  · cases hempty
  · exact hentry

theorem taskM_foldl_eq_none {id : String} (h : (loaded.foldl Grouping.add g).taskM id = none) :
    g.taskM id = none ∧ id ∉ upstreamIds loaded := by
  unfold upstreamIds
  induction loaded generalizing g with
  | nil => exact ⟨h, not_mem_nil⟩
  | cons first loaded ih =>
    obtain ⟨hfirst, hrest⟩ := ih h
    rw [taskM_add] at hfirst
    split at hfirst
    · cases hfirst
    next hid =>
    refine ⟨hfirst, ?_⟩
    by_cases hempty : first.1.getUpstreamTaskID = ""
    · rwa [named_cons_of_empty hempty]
    · rw [named_cons_of_ne hempty, map_cons, mem_cons, not_or]
      exact ⟨fun heq => hid ⟨hempty, heq.symm⟩, hrest⟩

private theorem taskM_groupTasks_eq_none_iff (tasks : List Task) (id : String) :
    (groupTasks tasks).taskM id = none ↔ id ∉ upstreamIds tasks.zipIdx := by
  constructor
  · intro h
    exact (taskM_foldl_eq_none h).2
  · intro h
    rw [groupTasks, taskM_foldl_of_not_mem h]
    rfl

def HoldsOther (tasks : List Task) (entry : Task × Nat) (j : Nat) : Prop :=
  ∃ other ∈ tasks.zipIdx, other ≠ entry ∧ other.2 = j

def Holds (tasks : List Task) (s : System) : Prop :=
  ∀ entry ∈ tasks.zipIdx, ∀ o, s.objects entry.2 = some o → o.task.id = entry.1.id

theorem mem_zipIdx_unique (hentry : entry ∈ tasks.zipIdx) (hother : other ∈ tasks.zipIdx)
    (h : entry.2 = other.2) : entry = other := by
  rw [mem_zipIdx_iff_getElem?] at hentry hother
  rw [h] at hentry
  exact Prod.ext (Option.some.inj (hentry.symm.trans hother)) h

private theorem mem_zipIdx_of_id (hkeys : (tasks.map Task.id).Nodup) (hentry : entry ∈ tasks.zipIdx)
    (hother : other ∈ tasks.zipIdx) (h : entry.1.id = other.1.id) : entry = other := by
  apply mem_zipIdx_unique hentry hother
  rw [mem_zipIdx_iff_getElem?] at hentry hother
  have hlength := (List.getElem?_eq_some_iff.mp hentry).1
  apply (List.getElem?_inj (by rwa [length_map]) hkeys).mp
  rw [List.getElem?_map, List.getElem?_map, hentry, hother]
  exact congrArg some h

/--
The items of a response are read to the end exactly if each of them has the id of a polled
task.  A task whose id does not occur keeps its object and its row in any case.
-/
theorem updateSunoTasks_tolerates_iff (env : Env) (tasks : List Task)
    (hkeys : (tasks.map Task.id).Nodup) (channel : Int × List String) (hasked : channel.2 ≠ [])
    (fetch : SunoFetch) (s : System) (hloaded : Holds tasks s) :
    ((∀ id, (updateSunoChannel (groupTasks tasks).taskM channel fetch).2 ≠ .nilTask id) ↔
      ∀ items, fetch.items = some items →
        ∀ item ∈ items, item.1.taskID ∈ upstreamIds tasks.zipIdx) ∧
    ∀ items, fetch.items = some items → ∀ entry ∈ tasks.zipIdx,
      (∀ item ∈ items, item.1.taskID ≠ entry.1.getUpstreamTaskID) →
        let after := run (step env) s (updateSunoChannel (groupTasks tasks).taskM channel fetch).1
        after.objects entry.2 = s.objects entry.2 ∧
          after.rows.row entry.1.id = s.rows.row entry.1.id := by
  constructor
  · rw [never_nilTask_iff hasked]
    simp [ne_eq, taskM_groupTasks_eq_none_iff]
  · intro items hitems entry hentry habsent
    rw [updateSunoChannel_of_items hasked hitems]
    have hspared : Spared (HoldsOther tasks entry) entry.1.id s
        (run (step env) s (updateSunoTasks (groupTasks tasks).taskM items)) := by
      apply spared_updateSunoTasks env
      · intro item hitem j hj
        obtain ⟨other, hmem, hid, hobject⟩ := taskM_groupTasks_some hj
        refine ⟨other, hmem, ?_, hobject⟩
        rintro rfl
        exact habsent item hitem hid.symm
      · rintro j ⟨other, hmem, hne, rfl⟩ o ho hid
        rw [hloaded other hmem o ho] at hid
        exact hne (mem_zipIdx_of_id hkeys hmem hentry hid)
    constructor
    · apply hspared.objects
      rintro ⟨other, hmem, hne, hobject⟩
      exact hne (mem_zipIdx_unique hmem hentry hobject)
    · exact hspared.rows

/-! A polled task, and a response with an item of another. -/

def sunoTask : Task := plainTask .suno 300

def sunoLoaded : System := run (step plainEnv) (.init oneSunoTask) [.loadUnfinished 0 1]

def sunoResponse (id : String) : SunoFetch :=
  { unmarshal := .ok (true, [({ plainItem "SUCCESS" "" with taskID := id }, saved)]) }

def sunoRound (id : String) : List Event × SunoEnd :=
  updateSunoChannel (groupTasks [sunoTask]).taskM (3, ["up_1"]) (sunoResponse id)

theorem updateSunoTasks_tolerates_polled :
    (sunoRound "up_1").1 ≠ [] ∧ ∀ id, (sunoRound "up_1").2 ≠ .nilTask id := by
  refine ⟨by decide, ?_⟩
  apply (updateSunoTasks_tolerates_iff plainEnv [sunoTask] (by decide) (3, ["up_1"]) (by decide)
    (sunoResponse "up_1") sunoLoaded _).1.mpr
  · intro items hitems item hitem
    cases hitems
    obtain rfl := mem_singleton.mp hitem
    decide
  · intro entry hentry o ho
    obtain rfl := mem_singleton.mp hentry
    cases ho
    rfl

/-- An item of a task that nobody asked for, or with no id, ends the process. -/
theorem updateSunoTasks_nil_task :
    (sunoRound "up_2").2 = .nilTask "up_2" ∧ (sunoRound "").2 = .nilTask "" := by
  decide

end NewApi.Tasks
