import NewApi.Tasks.SunoRefunds

/-!
# Poll dispatch

The grouping of one platform's tasks in `TaskPollingLoop` and the loops of
`UpdateVideoTasks` over it.  The ids to ask for are kept by channel, the tasks
themselves by upstream id alone, so that a task is found again only if no other
task has its id.
-/

namespace NewApi.Tasks

open Foundation List

structure Grouping where
  taskChannelM : Buckets Int String
  taskM : String → Option Nat
  nullTaskIds : List Int

open Grouping

def Grouping.empty : Grouping := ⟨Buckets.empty, fun _ => none, []⟩

def Grouping.add (g : Grouping) (loaded : Task × Nat) : Grouping :=
  let upstreamID := loaded.1.getUpstreamTaskID
  if upstreamID = "" then { g with nullTaskIds := g.nullTaskIds ++ [loaded.1.id] }
  else
    { g with
      taskM := Function.update g.taskM upstreamID (some loaded.2)
      taskChannelM := Buckets.add g.taskChannelM (loaded.1.channelId, upstreamID) }

def groupTasks (tasks : List Task) : Grouping := tasks.zipIdx.foldl add empty

structure VideoCall where
  channelId : Int
  taskId : String
  object : Option Nat
  deriving DecidableEq

open VideoCall

structure ChannelRound where
  calls : List VideoCall := []
  /-- The objects whose rows are set to failed at once. -/
  failed : List Nat := []
  error : Option String := none

section

variable (cacheGetChannel : Int → Except String Unit) (adaptor : Bool) (taskM : String → Option Nat)

def updateVideoTasks (channel : Int × List String) : ChannelRound :=
  if channel.2 = [] then {}
  else
    match cacheGetChannel channel.1 with
    | .error e =>
      { failed := channel.2.filterMap taskM
        error := some ("CacheGetChannel failed: " ++ e) }
    | .ok () =>
      if adaptor = true then
        { calls := channel.2.map fun taskId => ⟨channel.1, taskId, taskM taskId⟩ }
      else { error := some "video adaptor not found" }

def videoCalls (visited : List (Int × List String)) : List VideoCall :=
  visited.flatMap fun channel => (updateVideoTasks cacheGetChannel adaptor taskM channel).calls

def reaches (channelId : Int) : Bool :=
  match cacheGetChannel channelId with
  | .error _ => false
  | .ok () => adaptor

private theorem videoCalls_eq (visited : List (Int × List String)) :
    videoCalls cacheGetChannel adaptor taskM visited =
      ((Buckets.entries visited).filter fun entry => reaches cacheGetChannel adaptor entry.1).map
        fun entry => ⟨entry.1, entry.2, taskM entry.2⟩ := by
  induction visited with
  | nil => rfl
  | cons channel visited ih =>
    rw [videoCalls, flatMap_cons, Buckets.entries_cons, filter_append, map_append, ← ih]
    congr 1
    unfold updateVideoTasks
    split
    · next hempty => rw [hempty]; rfl
    cases hchannel : cacheGetChannel channel.1 with
    | error => simp [reaches, hchannel]
    | ok =>
      cases adaptor with
      | false => simp [reaches, hchannel]
      | true => simp [reaches, hchannel, filter_map, Function.comp_def]

end

def named (loaded : List (Task × Nat)) : List (Task × Nat) :=
  loaded.filter fun entry => entry.1.getUpstreamTaskID ≠ ""

variable {entry : Task × Nat} {loaded : List (Task × Nat)}

theorem named_cons_of_empty (h : entry.1.getUpstreamTaskID = "") (loaded : List (Task × Nat)) :
    named (entry :: loaded) = named loaded := by
  simp [named, h]

theorem named_cons_of_ne (h : entry.1.getUpstreamTaskID ≠ "") (loaded : List (Task × Nat)) :
    named (entry :: loaded) = entry :: named loaded := by
  simp [named, h]

def ownCalls (tasks : List Task) : List VideoCall :=
  (named tasks.zipIdx).map fun entry =>
    ⟨entry.1.channelId, entry.1.getUpstreamTaskID, some entry.2⟩

def upstreamIds (loaded : List (Task × Nat)) : List String :=
  (named loaded).map fun entry => entry.1.getUpstreamTaskID

private theorem taskChannelM_foldl (loaded : List (Task × Nat)) (g : Grouping) :
    (loaded.foldl add g).taskChannelM =
      ((named loaded).map fun entry => (entry.1.channelId, entry.1.getUpstreamTaskID)).foldl
        Buckets.add g.taskChannelM := by
  induction loaded generalizing g with
  | nil => rfl
  | cons entry loaded ih =>
    rw [foldl_cons, ih]
    by_cases hempty : entry.1.getUpstreamTaskID = ""
    · rw [named_cons_of_empty hempty, add, if_pos hempty]
    · rw [named_cons_of_ne hempty, map_cons, foldl_cons, add, if_neg hempty]

theorem taskM_foldl_of_not_mem {id : String} (h : id ∉ upstreamIds loaded) (g : Grouping) :
    (loaded.foldl add g).taskM id = g.taskM id := by
  unfold upstreamIds at h
  induction loaded generalizing g with
  | nil => rfl
  | cons entry loaded ih =>
    rw [foldl_cons]
    by_cases hempty : entry.1.getUpstreamTaskID = ""
    · rw [named_cons_of_empty hempty] at h
      rw [ih h, add, if_pos hempty]
    · rw [named_cons_of_ne hempty, map_cons, mem_cons, not_or] at h
      rw [ih h.2, add, if_neg hempty]
      exact Function.update_of_ne h.1 _ _

private theorem taskM_foldl_of_mem (h : (upstreamIds loaded).Nodup) (hentry : entry ∈ named loaded)
    (g : Grouping) :
    (loaded.foldl add g).taskM entry.1.getUpstreamTaskID = some entry.2 := by
  unfold upstreamIds at h
  induction loaded generalizing g with
  | nil => cases hentry
  | cons first loaded ih =>
    rw [foldl_cons]
    by_cases hempty : first.1.getUpstreamTaskID = ""
    · rw [named_cons_of_empty hempty] at h hentry
      exact ih h hentry _
    rw [named_cons_of_ne hempty] at h hentry
    rw [map_cons, nodup_cons] at h
    rcases mem_cons.mp hentry with rfl | hrest
    · -- no later task writes over it
      rw [taskM_foldl_of_not_mem h.1, add, if_neg hempty]
      exact Function.update_self _ _ _
    · exact ih h.2 hrest _

section

variable (cacheGetChannel : Int → Except String Unit) (adaptor : Bool) (tasks : List Task)
  {visited : List (Int × List String)}

theorem videoCalls_perm (hvisited : visited.Perm (groupTasks tasks).taskChannelM.rows) :
    (videoCalls cacheGetChannel adaptor (groupTasks tasks).taskM visited).Perm
      (((named tasks.zipIdx).filter fun entry =>
          reaches cacheGetChannel adaptor entry.1.channelId).map fun entry =>
        ⟨entry.1.channelId, entry.1.getUpstreamTaskID,
          (groupTasks tasks).taskM entry.1.getUpstreamTaskID⟩) := by
  have hentries : (Buckets.entries visited).Perm ((named tasks.zipIdx).map fun entry =>
      (entry.1.channelId, entry.1.getUpstreamTaskID)) := by
    refine (Buckets.entries_perm hvisited).trans ?_
    rw [groupTasks, taskChannelM_foldl]
    exact Buckets.entries_foldl _ Buckets.empty
  have hcalls := (hentries.filter fun entry => reaches cacheGetChannel adaptor entry.1).map
    fun entry => (⟨entry.1, entry.2, (groupTasks tasks).taskM entry.2⟩ : VideoCall)
  rw [filter_map, map_map] at hcalls
  rw [videoCalls_eq]
  exact hcalls

section

variable (h : (videoCalls cacheGetChannel adaptor (groupTasks tasks).taskM visited).Perm
  (ownCalls tasks))
include h

theorem nodup_object_of_perm :
    ((videoCalls cacheGetChannel adaptor (groupTasks tasks).taskM visited).map object).Nodup := by
  have hpositions : (tasks.zipIdx.map Prod.snd).Nodup := by
    rw [zipIdx_map_snd]
    exact nodup_range'
  have hsome := hpositions.map (Option.some_injective Nat)
  rw [map_map] at hsome
  rw [(h.map object).nodup_iff, ownCalls, map_map]
  exact hsome.sublist (filter_sublist.map _)

variable (hvisited : visited.Perm (groupTasks tasks).taskChannelM.rows)
include hvisited

theorem reaches_of_perm :
    ∀ entry ∈ named tasks.zipIdx, reaches cacheGetChannel adaptor entry.1.channelId = true := by
  have hcalls := videoCalls_perm cacheGetChannel adaptor tasks hvisited
  have hlength := (hcalls.symm.trans h).length_eq
  rw [length_map, ownCalls, length_map] at hlength
  exact length_filter_eq_length_iff.mp hlength

private theorem nodup_upstreamIds_of_perm : (upstreamIds tasks.zipIdx).Nodup := by
  have hall := reaches_of_perm cacheGetChannel adaptor tasks h hvisited
  have hcalls := videoCalls_perm cacheGetChannel adaptor tasks hvisited
  have hnodup := nodup_object_of_perm cacheGetChannel adaptor tasks h
  rw [(hcalls.map object).nodup_iff, filter_eq_self.mpr hall, map_map]
    at hnodup
  have hlookups : (named tasks.zipIdx).map (object ∘ fun entry =>
      ⟨entry.1.channelId, entry.1.getUpstreamTaskID,
        (groupTasks tasks).taskM entry.1.getUpstreamTaskID⟩) =
      (upstreamIds tasks.zipIdx).map (groupTasks tasks).taskM := by
    rw [upstreamIds, map_map]
    rfl
  rw [hlookups] at hnodup
  exact hnodup.of_map

end

end

/--
In one round each task with an upstream id is visited once, as its own object and on its own
channel, exactly if no two of these ids are equal, every channel is found and the platform
has an adaptor.  Then no object is visited twice.
-/
theorem updateVideoTasks_own_iff (cacheGetChannel : Int → Except String Unit) (adaptor : Bool)
    (tasks : List Task) (visited : List (Int × List String))
    (hvisited : visited.Perm (groupTasks tasks).taskChannelM.rows) :
    ((videoCalls cacheGetChannel adaptor (groupTasks tasks).taskM visited).Perm (ownCalls tasks) ↔
      (upstreamIds tasks.zipIdx).Nodup ∧
        ∀ entry ∈ named tasks.zipIdx, reaches cacheGetChannel adaptor entry.1.channelId = true) ∧
    ((videoCalls cacheGetChannel adaptor (groupTasks tasks).taskM visited).Perm (ownCalls tasks) →
      ((videoCalls cacheGetChannel adaptor (groupTasks tasks).taskM visited).map
        object).Nodup) := by
  constructor
  · constructor
    · intro h
      constructor
      · exact nodup_upstreamIds_of_perm cacheGetChannel adaptor tasks h hvisited
      · exact reaches_of_perm cacheGetChannel adaptor tasks h hvisited
    · rintro ⟨hdistinct, hall⟩
      have hcalls := videoCalls_perm cacheGetChannel adaptor tasks hvisited
      rw [filter_eq_self.mpr hall] at hcalls
      apply hcalls.trans
      apply List.Perm.of_eq
      rw [ownCalls]
      apply map_congr_left
      intro entry hentry
      rw [groupTasks, taskM_foldl_of_mem hdistinct hentry]
  · intro h
    exact nodup_object_of_perm cacheGetChannel adaptor tasks h

structure PollAnswers where
  now : Int
  response : PollResponse
  saved : Bool
  quota : QuotaAnswers
  inputs : SettleInputs

def pollEvents (calls : List (VideoCall × PollAnswers)) : List Event :=
  calls.flatMap fun (call, answers) =>
    match call.object with
    | none => []
    | some j =>
      [.poll j answers.now answers.response answers.saved, .bill j answers.quota answers.inputs]

/-! Two videos of different channels. -/

def videoTask (id channelId : Int) (upstreamID : String) : Task :=
  let task := plainTask (.other "55") 100
  { task with
    id := id
    taskID := if id = 1 then "task_1" else "task_2"
    channelId := channelId
    privateData := { task.privateData with upstreamTaskID := upstreamID } }

def videoRound (first second : Task) : List VideoCall :=
  videoCalls (fun _ => .ok ()) true (groupTasks [first, second]).taskM
    (groupTasks [first, second]).taskChannelM.rows

theorem updateVideoTasks_own_distinct :
    (videoRound (videoTask 1 3 "up_1") (videoTask 2 4 "up_2")).Perm
      (ownCalls [videoTask 1 3 "up_1", videoTask 2 4 "up_2"]) := by
  apply (updateVideoTasks_own_iff _ _ _ _ (List.Perm.refl _)).1.mpr
  decide

def failedAnswers : PollAnswers where
  now := 1800000100
  response := plainResponse "FAILURE"
  saved := true
  quota := allOk
  inputs := noSettlement

/-- With one upstream id the second task is visited for both, and refunded twice. -/
theorem updateVideoTasks_own_shared :
    videoRound (videoTask 1 3 "up_1") (videoTask 2 4 "up_1") =
      [⟨3, "up_1", some 1⟩, ⟨4, "up_1", some 1⟩] ∧
    refunds (run (step plainEnv) (System.init TaskTable.empty)
      ([.insert (videoTask 1 3 "up_1"), .insert (videoTask 2 4 "up_1"), .loadUnfinished 0 1,
        .loadUnfinished 1 2] ++
        pollEvents ((videoRound (videoTask 1 3 "up_1") (videoTask 2 4 "up_1")).map
          fun call => (call, failedAnswers)))) 2 = 2 := by
  decide

end NewApi.Tasks
