import Mathlib.Data.List.Dedup
import Mathlib.Data.List.GetD
import Mathlib.Data.List.Sort
import NewApi.Foundation.Fuel
import NewApi.Foundation.Stages

/-!
# The retry loop

After a failed attempt the relay asks for another channel of the token's group, a
step down in priority for each retry.  A token of the group `auto` goes through
the user's automatic groups instead: the index of the group is kept in the
request context, and the selection sets the loop's own counter back when it moves
on to another group.
-/

namespace NewApi.Retry

open Foundation List Nat

/-! ## Choosing a channel of a group -/

structure Channel where
  id : Nat
  priority : Int
  weight : Nat
  deriving DecidableEq

structure Setting where
  retryTimes : Nat
  memoryCacheEnabled : Bool
  autoGroups : List String
  userUsableGroup : String → String → Bool
  /-- The enabled channels of a group for a model. -/
  channels : String → String → List Channel
  formatMatchingModelName : String → String
  isAlwaysSkipRetryCode : String → Bool
  shouldRetryByStatusCode : Int → Bool

section

variable (channels : List Channel)

def sortedUniquePriorities : List Int := (channels.map (·.priority)).dedup.insertionSort (· ≥ ·)

def targetPriority (retry : Nat) : Int :=
  let priorities := sortedUniquePriorities channels
  priorities.getD (min retry (priorities.length - 1)) 0

def sumOf (weight : Channel → Nat) (channels : List Channel) : Nat :=
  channels.foldl (fun sum channel => sum + weight channel) 0

def pick (stop : Int → Bool) (weight : Channel → Nat) : Int → List Channel → Option Channel
  | _, [] => none
  | random, channel :: rest =>
    let left := random - weight channel
    if stop left = true then some channel else pick stop weight left rest

def pickCached (targets : List Channel) (random : Nat) : Option Channel :=
  let sumWeight := sumOf (·.weight) targets
  if sumWeight = 0 then
    -- every channel counts for 100
    pick (· < 0) (fun channel => channel.weight + 100) ↑(random % (targets.length * 100)) targets
  else
    let smoothingFactor := if sumWeight / targets.length < 10 then 100 else 1
    pick (· < 0) (fun channel => channel.weight * smoothingFactor)
      ↑(random % (sumWeight * smoothingFactor)) targets

def getChannelQuery (retry : Nat) : List Channel :=
  let targets :=
    if retry = 0 then
      channels.filter fun channel => channels.all fun other => other.priority ≤ channel.priority
    else channels.filter fun channel => channel.priority = targetPriority channels retry
  targets.insertionSort fun a b => a.weight ≥ b.weight

def dbGetChannel (retry random : Nat) : Option Channel :=
  let abilities := getChannelQuery channels retry
  let weightSum := sumOf (fun ability => ability.weight + 10) abilities
  pick (· ≤ 0) (fun ability => ability.weight + 10) ↑(random % weightSum) abilities

end

section

variable (set : Setting)

def candidates (group model : String) : List Channel :=
  if set.memoryCacheEnabled = true ∧ set.channels group model = [] then
    set.channels group (set.formatMatchingModelName model)
  else set.channels group model

def getRandomSatisfiedChannel (group model : String) (retry random : Nat) : Option Channel :=
  let channels := candidates set group model
  if set.memoryCacheEnabled = true then
    match channels with
    | [] => none
    | [channel] => some channel
    | _ =>
      let targets := channels.filter fun channel =>
        channel.priority = targetPriority channels retry
      pickCached targets random
  else dbGetChannel channels retry random

/-! ## The selection for an attempt -/

structure Request where
  tokenGroup : String
  modelName : String
  userGroup : String
  crossGroupRetry : Bool
  specificChannel : Bool

structure RetryParam where
  retry : Option Nat
  resetNextTry : Bool

section

variable (param : RetryParam)

def RetryParam.getRetry : Nat := param.retry.getD 0

def RetryParam.setRetry (retry : Nat) : RetryParam :=
  { param with retry := some retry }

def RetryParam.increaseRetry : RetryParam :=
  if param.resetNextTry = true then { param with resetNextTry := false }
  else { param with retry := some (param.getRetry + 1) }

def RetryParam.resetRetryNextTry : RetryParam :=
  { param with resetNextTry := true }

end

structure Counters where
  param : RetryParam
  autoGroupIndex : Option Nat

def Counters.increaseRetry (counters : Counters) : Counters :=
  { counters with param := counters.param.increaseRetry }

structure Selection where
  groupIndex : Nat
  group : String
  channel : Channel
  deriving DecidableEq

def getUserAutoGroup (userGroup : String) : List String :=
  set.autoGroups.filter (set.userUsableGroup userGroup)

def selectAuto (set : Setting) (req : Request) (random startGroupIndex : Nat) :
    Nat → List String → Counters → Option Selection × Counters
  | _, [], counters => (none, counters)
  | i, autoGroup :: rest, counters =>
    let priorityRetry := if i > startGroupIndex then 0 else counters.param.getRetry
    match getRandomSatisfiedChannel set autoGroup req.modelName priorityRetry random with
    | none =>
      selectAuto set req random startGroupIndex (i + 1) rest
        { param := counters.param.setRetry 0, autoGroupIndex := some (i + 1) }
    | some channel =>
      let selection : Selection := ⟨i, autoGroup, channel⟩
      if req.crossGroupRetry = true ∧ priorityRetry ≥ set.retryTimes then
        -- this attempt still uses the group, the next one goes on to another
        (some selection,
          { param := (counters.param.setRetry 0).resetRetryNextTry
            autoGroupIndex := some (i + 1) })
      else (some selection, { counters with autoGroupIndex := some i })

section

variable (req : Request)

def cacheGetRandomSatisfiedChannel (random : Nat) (counters : Counters) :
    Option Selection × Counters :=
  if req.tokenGroup = "auto" then
    if set.autoGroups.length = 0 then (none, counters)
    else
      let startGroupIndex := counters.autoGroupIndex.getD 0
      selectAuto set req random startGroupIndex startGroupIndex
        ((getUserAutoGroup set req.userGroup).drop startGroupIndex) counters
  else
    let channel :=
      getRandomSatisfiedChannel set req.tokenGroup req.modelName counters.param.getRetry random
    (channel.map fun channel => ⟨0, req.tokenGroup, channel⟩, counters)

structure Failure where
  skipAfterAffinity : Bool
  channelError : Bool
  skipRetry : Bool
  timeout : Bool
  statusCode : Int
  errorCode : String

def shouldRetry (e : Failure) (retryTimes : Int) : Bool :=
  if e.skipAfterAffinity = true then false
  else if e.channelError = true then true
  else if e.skipRetry = true then false
  else if retryTimes ≤ 0 then false
  else if req.specificChannel = true then false
  else if e.timeout = true then true
  else if e.statusCode ≥ 200 ∧ e.statusCode < 300 then false
  else if e.statusCode < 100 ∨ e.statusCode > 599 then true
  else if set.isAlwaysSkipRetryCode e.errorCode = true then false
  else set.shouldRetryByStatusCode e.statusCode

inductive Outcome where
  /-- The channel cannot be set up or the body cannot be read: the loop is left. -/
  | aborted
  | success
  | failed (e : Failure)

inductive Attempt where
  /-- The first attempt, on the channel that the request came with. -/
  | given
  | selected (selection : Selection)
  /-- No channel was found, which ends the loop. -/
  | notFound
  deriving DecidableEq

def Attempt.selection : Attempt → Option Selection
  | .selected selection => some selection
  | _ => none

structure State where
  counters : Counters
  /-- Whether a first attempt has stored its channel. -/
  channelMeta : Bool
  attempts : List Attempt

def getChannel (random : Nat) (s : State) : Attempt × Counters :=
  if s.channelMeta = true then
    match cacheGetRandomSatisfiedChannel set req random s.counters with
    | (none, counters) => (.notFound, counters)
    | (some selection, counters) => (.selected selection, counters)
  else (.given, s.counters)

/-- One round of the loop, from the test of its counter on; the flag says whether it is
followed by another. -/
def relayRound (outcomes : Nat → Outcome) (randoms : Nat → Nat) (s : State) : State × Bool :=
  if s.counters.param.getRetry ≤ set.retryTimes then
    let next := getChannel set req (randoms s.attempts.length) s
    let s' : State := ⟨next.2, true, s.attempts ++ [next.1]⟩
    match next.1, outcomes s.attempts.length with
    | .notFound, _ => (s', false)
    | _, .aborted => (s', false)
    | _, .success => (s', false)
    | _, .failed e =>
      if shouldRetry set req e (set.retryTimes - s'.counters.param.getRetry) = true then
        ({ s' with counters := s'.counters.increaseRetry }, true)
      else (s', false)
  else (s, false)

/-- The loop as the request finds it; the group index is the one that the distributor left. -/
def start (autoGroupIndex : Option Nat) : State := ⟨⟨⟨some 0, false⟩, autoGroupIndex⟩, false, []⟩

def relay (autoGroupIndex : Option Nat) (outcomes : Nat → Outcome) (randoms : Nat → Nat)
    (fuel : Nat) : Option State :=
  loopFrom (fun _ s => some (relayRound set req outcomes randoms s)) (start autoGroupIndex) fuel

def selections (s : State) : List Selection := s.attempts.filterMap Attempt.selection

def maxAttempts : Nat :=
  1 + (set.retryTimes + 1) * max 1 (getUserAutoGroup set req.userGroup).length

end

end

/-! ## The priority of the chosen channel -/

variable {channels : List Channel} {channel : Channel} {retry random : Nat}

theorem pick_mem {stop : Int → Bool} {weight : Channel → Nat} {random : Int}
    (h : pick stop weight random channels = some channel) : channel ∈ channels := by
  induction channels generalizing random with
  | nil => simp [pick] at h
  | cons first rest ih =>
    simp only [pick] at h
    split at h
    · exact mem_cons.mpr (.inl (Option.some.inj h).symm)
    · exact mem_cons_of_mem first (ih h)

theorem mem_sortedUniquePriorities {priority : Int} :
    priority ∈ sortedUniquePriorities channels ↔ ∃ c ∈ channels, c.priority = priority := by
  simp [sortedUniquePriorities, mem_insertionSort]

theorem sortedUniquePriorities_pairwise (channels : List Channel) :
    (sortedUniquePriorities channels).Pairwise (· ≥ ·) := pairwise_insertionSort _ _

private theorem getD_le_getD {l : List Int} (h : l.Pairwise (· ≥ ·)) {i j : Nat} (hij : i ≤ j)
    (hj : j < l.length) : l.getD j 0 ≤ l.getD i 0 := by
  rw [getD_eq_getElem l 0 hj, getD_eq_getElem l 0 (lt_of_le_of_lt hij hj)]
  obtain hlt | rfl := lt_or_eq_of_le hij
  · exact pairwise_iff_getElem.mp h i j _ _ hlt
  · exact Int.le_refl _

theorem targetPriority_antitone (channels : List Channel) {retry' : Nat} (h : retry ≤ retry') :
    targetPriority channels retry' ≤ targetPriority channels retry := by
  simp only [targetPriority]
  cases hl : sortedUniquePriorities channels with
  | nil => simp
  | cons first rest =>
    have hsorted : (first :: rest).Pairwise (· ≥ ·) := hl ▸ sortedUniquePriorities_pairwise channels
    refine getD_le_getD hsorted ?_ ?_
    · omega
    · simp only [length_cons]
      omega

theorem exists_targetPriority (retry : Nat) (h : channels ≠ []) :
    ∃ channel ∈ channels, channel.priority = targetPriority channels retry := by
  refine mem_sortedUniquePriorities.mp ?_
  obtain ⟨channel, hchannel⟩ := exists_mem_of_ne_nil channels h
  have hin : channel.priority ∈ sortedUniquePriorities channels :=
    mem_sortedUniquePriorities.mpr ⟨channel, hchannel, rfl⟩
  have hlength := length_pos_of_mem hin
  simp only [targetPriority]
  rw [getD_eq_getElem _ _ (by omega)]
  exact List.getElem_mem _

theorem le_targetPriority_zero (h : channel ∈ channels) :
    channel.priority ≤ targetPriority channels 0 := by
  have hin : channel.priority ∈ sortedUniquePriorities channels :=
    mem_sortedUniquePriorities.mpr ⟨channel, h, rfl⟩
  have hsorted := sortedUniquePriorities_pairwise channels
  simp only [targetPriority]
  cases hl : sortedUniquePriorities channels with
  | nil => simp [hl] at hin
  | cons =>
    rw [hl] at hin hsorted
    obtain heq | hrest := mem_cons.mp hin
    · exact Int.le_of_eq heq
    · exact (pairwise_cons.mp hsorted).1 _ hrest

theorem pickCached_mem {targets : List Channel} (h : pickCached targets random = some channel) :
    channel ∈ targets := by
  simp only [pickCached] at h
  split at h <;> exact pick_mem h

theorem priority_of_getRandomSatisfiedChannel {set : Setting} {group model : String}
    (h : getRandomSatisfiedChannel set group model retry random = some channel) :
    channel.priority = targetPriority (candidates set group model) retry := by
  simp only [getRandomSatisfiedChannel] at h
  split at h
  · split at h
    · cases h
    · next only honly =>
      cases h
      rw [honly]
      simp [targetPriority, sortedUniquePriorities]
    · have hmem := pickCached_mem h
      simp only [mem_filter, decide_eq_true_eq] at hmem
      exact hmem.2
  · have hmem := pick_mem h
    simp only [getChannelQuery, mem_insertionSort] at hmem
    split at hmem
    · next hretry =>
      subst hretry
      simp only [mem_filter, all_eq_true, decide_eq_true_eq] at hmem
      obtain ⟨highest, hhighest, htarget⟩ := exists_targetPriority 0 (ne_nil_of_mem hmem.1)
      refine Int.le_antisymm (le_targetPriority_zero hmem.1) ?_
      rw [← htarget]
      exact hmem.2 highest hhighest
    · simp only [mem_filter, decide_eq_true_eq] at hmem
      exact hmem.2

/-! ## A group that has channels gives one -/

section

variable (weight : Channel → Nat)

theorem sumOf_cons (first : Channel) (rest : List Channel) :
    sumOf weight (first :: rest) = weight first + sumOf weight rest := by
  have hfrom : ∀ (channels : List Channel) (sum : Nat),
      channels.foldl (fun sum channel => sum + weight channel) sum =
        sum + sumOf weight channels := by
    intro channels
    induction channels with
    | nil => exact fun sum => rfl
    | cons channel channels ih =>
      intro sum
      simp only [sumOf, foldl_cons]
      rw [ih (sum + weight channel), ih (0 + weight channel)]
      omega
  simp only [sumOf, foldl_cons]
  rw [hfrom rest (0 + weight first), Nat.zero_add]
  rfl

theorem sumOf_add (n : Nat) (channels : List Channel) :
    sumOf (fun channel => weight channel + n) channels =
      sumOf weight channels + channels.length * n := by
  induction channels with
  | nil => simp [sumOf]
  | cons first rest ih =>
    rw [sumOf_cons, sumOf_cons, ih, length_cons, succ_mul]
    omega

private theorem sumOf_mul (n : Nat) (channels : List Channel) :
    sumOf (fun channel => weight channel * n) channels = sumOf weight channels * n := by
  induction channels with
  | nil => simp [sumOf]
  | cons first rest ih => rw [sumOf_cons, sumOf_cons, ih, Nat.add_mul]

end

variable {stop : Int → Bool} {channels : List Channel} {random : Nat}
  {counters counters' : Counters} {selection : Selection}

section

variable {weight : Channel → Nat} {set : Setting} {req : Request}

private theorem pick_isSome (hstop : ∀ x < 0, stop x = true) {random : Int} (hnonneg : 0 ≤ random)
    (hlt : random < sumOf weight channels) : (pick stop weight random channels).isSome := by
  induction channels generalizing random with
  | nil =>
    have hempty : random < 0 := hlt
    omega
  | cons first rest ih =>
    simp only [pick]
    split
    · rfl
    next hgoes =>
    have hleft : 0 ≤ random - weight first := by
      by_contra hneg
      exact hgoes (hstop _ (by omega))
    refine ih hleft ?_
    rw [sumOf_cons] at hlt
    omega

theorem pick_mod_isSome (hstop : ∀ x < 0, stop x = true) {total : Nat} (hpos : 0 < total)
    (htotal : total = sumOf weight channels) :
    (pick stop weight ↑(random % total) channels).isSome := by
  have hlt := mod_lt random hpos
  exact pick_isSome hstop (by omega) (by omega)

private theorem pickCached_isSome {targets : List Channel} (random : Nat) (h : targets ≠ []) :
    (pickCached targets random).isSome := by
  have hlength := length_pos_iff.mpr h
  simp only [pickCached]
  split
  · next hzero =>
    refine pick_mod_isSome (by simp) (by omega) ?_
    rw [sumOf_add, hzero, Nat.zero_add]
  · next hsum =>
    refine pick_mod_isSome (by simp) ?_ (sumOf_mul _ _ _).symm
    refine Nat.mul_pos (Nat.pos_of_ne_zero hsum) ?_
    split <;> omega

private theorem getChannelQuery_ne_nil (retry : Nat) (h : channels ≠ []) :
    getChannelQuery channels retry ≠ [] := by
  obtain ⟨channel, hchannel, hpriority⟩ := exists_targetPriority retry h
  refine ne_nil_of_mem (a := channel) ?_
  simp only [getChannelQuery, mem_insertionSort]
  split
  · next hretry =>
    subst hretry
    simp only [mem_filter, all_eq_true, decide_eq_true_eq, hpriority]
    exact ⟨hchannel, fun other hother => le_targetPriority_zero hother⟩
  · simpa using ⟨hchannel, hpriority⟩

theorem getRandomSatisfiedChannel_isSome_iff (set : Setting) (group model : String)
    (retry random : Nat) :
    (getRandomSatisfiedChannel set group model retry random).isSome = true ↔
      candidates set group model ≠ [] := by
  constructor
  · intro h hempty
    simp only [getRandomSatisfiedChannel, hempty] at h
    split at h
    · cases h
    · simp [dbGetChannel, getChannelQuery, pick] at h
  · intro h
    simp only [getRandomSatisfiedChannel]
    split
    · split
      · next hempty => exact absurd hempty h
      · rfl
      · obtain ⟨channel, hchannel, hpriority⟩ := exists_targetPriority retry h
        exact pickCached_isSome random (ne_nil_of_mem (by simpa using ⟨hchannel, hpriority⟩))
    · have hlength := length_pos_iff.mpr (getChannelQuery_ne_nil retry h)
      refine pick_mod_isSome (by intro x hx; simpa using Int.le_of_lt hx) ?_ rfl
      rw [sumOf_add]
      omega

/-! ## The walk over the groups -/

def groups (set : Setting) (req : Request) : List String :=
  if req.tokenGroup = "auto" then getUserAutoGroup set req.userGroup else [req.tokenGroup]

def autoPlace (counters : Counters) : Place :=
  ⟨counters.autoGroupIndex.getD 0, counters.param.getRetry⟩

def place (req : Request) (counters : Counters) : Place :=
  if req.tokenGroup = "auto" then autoPlace counters else ⟨0, counters.param.getRetry⟩

def level (set : Setting) (model : String) (groups : List String) (i retry : Nat) : Int :=
  targetPriority (candidates set (groups.getD i "") model) retry

structure Walks (set : Setting) (model : String) (groups : List String) (p : Place)
    (selection : Selection) (q : Nat) (p' : Place) : Prop where
  visits : Visits groups.length set.retryTimes p selection.groupIndex q p'
  priority : selection.channel.priority = level set model groups selection.groupIndex q

theorem autoPlace_increaseRetry (h : counters.param.resetNextTry = false) :
    autoPlace counters.increaseRetry =
      ⟨counters.autoGroupIndex.getD 0, counters.param.getRetry + 1⟩ := by
  simp [autoPlace, Counters.increaseRetry, RetryParam.increaseRetry, RetryParam.getRetry, h]

theorem resetNextTry_increaseRetry (param : RetryParam) :
    param.increaseRetry.resetNextTry = false := by
  unfold RetryParam.increaseRetry
  split
  · rfl
  · next h => exact Bool.eq_false_iff.mpr h

private theorem selectAuto_walks {startGroupIndex : Nat} {all rest : List String} {i : Nat}
    (hrest : rest = all.drop i) (hi : startGroupIndex ≤ i)
    (hretry : counters.param.getRetry = if i = startGroupIndex then retry else 0)
    (hreset : counters.param.resetNextTry = false)
    (h : selectAuto set req random startGroupIndex i rest counters = (some selection, counters')) :
    ∃ q, Walks set req.modelName all ⟨startGroupIndex, retry⟩ selection q
      (autoPlace counters'.increaseRetry) := by
  induction rest generalizing i counters with
  | nil => simp [selectAuto] at h
  | cons autoGroup rest ih =>
    have hlt : i < all.length := by
      by_contra hge
      rw [drop_eq_nil_of_le (Nat.le_of_not_lt hge)] at hrest
      cases hrest
    rw [drop_eq_getElem_cons hlt] at hrest
    obtain ⟨hgroup, hdrop⟩ := List.cons.inj hrest
    -- the counter stands at zero wherever the loop has moved on
    have hpriority : (if i > startGroupIndex then 0 else counters.param.getRetry) =
        counters.param.getRetry := by
      split
      · next hgt => rw [hretry, if_neg (ne_of_gt hgt)]
      · rfl
    simp only [selectAuto, hpriority] at h
    split at h
    · refine ih hdrop (le_succ_of_le hi) ?_ ?_ h
      · rw [if_neg (by omega)]
        rfl
      · exact hreset
    next channel hchannel =>
    have hlevel : channel.priority = level set req.modelName all i counters.param.getRetry := by
      have hname : all.getD i "" = autoGroup := by
        rw [getD_eq_getElem all "" hlt, hgroup]
      rw [level, hname]
      exact priority_of_getRandomSatisfiedChannel hchannel
    split at h
    · next hlast =>
      obtain ⟨rfl, rfl⟩ : ⟨i, autoGroup, channel⟩ = selection ∧ _ = counters' := by
        simpa using h
      exact ⟨_, ⟨hi, hlt, hretry, .inr ⟨rfl, hlast.2⟩⟩, hlevel⟩
    · obtain ⟨rfl, rfl⟩ : ⟨i, autoGroup, channel⟩ = selection ∧ _ = counters' := by
        simpa using h
      refine ⟨_, ⟨hi, hlt, hretry, .inl ?_⟩, hlevel⟩
      exact autoPlace_increaseRetry hreset

private theorem cacheGetRandomSatisfiedChannel_walks (hreset : counters.param.resetNextTry = false)
    (h : cacheGetRandomSatisfiedChannel set req random counters = (some selection, counters')) :
    ∃ q, Walks set req.modelName (groups set req) (place req counters) selection q
      (place req counters'.increaseRetry) := by
  unfold cacheGetRandomSatisfiedChannel at h
  unfold groups place
  split at h
  · next hauto =>
    rw [if_pos hauto, if_pos hauto, if_pos hauto]
    split at h
    · cases h
    · exact selectAuto_walks rfl (le_refl _) (if_pos rfl).symm hreset h
  next hnamed =>
  rw [if_neg hnamed, if_neg hnamed, if_neg hnamed]
  obtain ⟨hselected, rfl⟩ := Prod.mk.inj h
  obtain ⟨channel, hchannel, rfl⟩ := Option.map_eq_some_iff.mp hselected
  refine ⟨counters.param.getRetry, ⟨?_, ?_, (if_pos rfl).symm, .inl ?_⟩, ?_⟩
  · exact le_refl 0
  · exact one_pos
  · have hnext := autoPlace_increaseRetry hreset
    exact congrArg (Place.mk 0) (congrArg Place.tried hnext)
  · exact priority_of_getRandomSatisfiedChannel hchannel

end

/-! ## Rounds of the loop -/

section Rounds

variable {set : Setting} {req : Request} {outcomes : Nat → Outcome} {randoms : Nat → Nat}

def visited (s : State) : List (Nat × Int) :=
  (selections s).map fun selection => (selection.groupIndex, selection.channel.priority)

def attemptsLeft (set : Setting) (req : Request) (s : State) : Nat :=
  if s.channelMeta = true then
    remaining (groups set req).length set.retryTimes (place req s.counters)
  else maxAttempts set req

structure Underway (set : Setting) (req : Request) (s : State) : Prop where
  reset : s.counters.param.resetNextTry = false
  attempts : s.attempts.length + attemptsLeft set req s ≤ maxAttempts set req
  behind : Behind (level set req.modelName (groups set req)) (visited s) (place req s.counters)
  forward : (visited s).Pairwise Forward

structure Finished (set : Setting) (req : Request) (s : State) : Prop where
  attempts : s.attempts.length ≤ maxAttempts set req
  forward : (visited s).Pairwise Forward

theorem visited_selected (s : State) (counters : Counters) (selection : Selection) :
    visited ⟨counters, true, s.attempts ++ [.selected selection]⟩ =
      visited s ++ [(selection.groupIndex, selection.channel.priority)] := by
  simp [visited, selections, Attempt.selection]

variable {attempt : Attempt} {counters : Counters}

theorem visited_unselected (s : State) (counters : Counters) (h : attempt.selection = none) :
    visited ⟨counters, true, s.attempts ++ [attempt]⟩ = visited s := by
  simp [visited, selections, h]

theorem place_tried (req : Request) (counters : Counters) :
    (place req counters).tried = counters.param.getRetry := by
  unfold place
  split <;> rfl

private theorem place_increaseRetry (h : counters.param.resetNextTry = false) :
    place req counters.increaseRetry =
      ⟨(place req counters).stage, (place req counters).tried + 1⟩ := by
  have hnext := autoPlace_increaseRetry h
  unfold place
  split
  · exact hnext
  · exact congrArg (Place.mk 0) (congrArg Place.tried hnext)

private theorem length_groups_le (set : Setting) (req : Request) :
    max 1 (groups set req).length ≤ max 1 (getUserAutoGroup set req.userGroup).length := by
  unfold groups
  split
  · exact le_refl _
  · simp

private theorem remaining_lt_maxAttempts {p : Place} (h : 0 < p.tried) :
    remaining (groups set req).length set.retryTimes p < maxAttempts set req := by
  have hle : remaining (groups set req).length set.retryTimes p ≤ _ := remaining_le h
  have hgroups := mul_le_mul_left (set.retryTimes + 1) (length_groups_le set req)
  unfold maxAttempts
  omega

variable {s : State}

private theorem attemptsLeft_pos (h : s.counters.param.getRetry ≤ set.retryTimes) :
    0 < attemptsLeft set req s := by
  unfold attemptsLeft
  split
  · exact remaining_pos (by rwa [place_tried])
  · unfold maxAttempts
    omega

theorem getChannel_cases (hreset : s.counters.param.resetNextTry = false)
    (h : getChannel set req random s = (attempt, counters)) :
    (s.channelMeta = false ∧ attempt = .given ∧ counters = s.counters) ∨
    (s.channelMeta = true ∧ attempt = .notFound) ∨
    (s.channelMeta = true ∧ ∃ selection q, attempt = .selected selection ∧
      Walks set req.modelName (groups set req) (place req s.counters) selection q
        (place req counters.increaseRetry)) := by
  unfold getChannel at h
  split at h
  · next hmeta =>
    split at h
    · exact .inr (.inl ⟨hmeta, (Prod.mk.inj h).1.symm⟩)
    next selection counters' hselected =>
    cases h
    obtain ⟨q, hwalks⟩ := cacheGetRandomSatisfiedChannel_walks hreset hselected
    exact .inr (.inr ⟨hmeta, selection, q, rfl, hwalks⟩)
  · next hmeta =>
    cases h
    exact .inl ⟨Bool.eq_false_iff.mpr hmeta, rfl, rfl⟩

section

variable (hs : Underway set req s)
include hs

variable {random : Nat} {attempt : Attempt} {counters : Counters}

section

variable (hretry : s.counters.param.getRetry ≤ set.retryTimes)
include hretry

section

variable (h : getChannel set req random s = (attempt, counters))
include h

theorem Underway.finished : Finished set req ⟨counters, true, s.attempts ++ [attempt]⟩ := by
  constructor
  · have hleft : 0 < attemptsLeft set req s := attemptsLeft_pos hretry
    have hattempts := hs.attempts
    simp only [length_append, length_singleton]
    omega
  · obtain ⟨-, rfl, -⟩ | ⟨-, rfl⟩ | ⟨-, selection, q, rfl, hwalks⟩ := getChannel_cases hs.reset h
    · rw [visited_unselected s counters rfl]
      exact hs.forward
    · rw [visited_unselected s counters rfl]
      exact hs.forward
    rw [visited_selected]
    refine pairwise_append.mpr ⟨hs.forward, pairwise_singleton _ _, ?_⟩
    intro v hv w hw
    obtain rfl := mem_singleton.mp hw
    rw [hwalks.priority]
    exact hwalks.visits.forward hs.behind v hv

theorem Underway.again (hfound : attempt ≠ .notFound) :
    let s' : State := ⟨counters.increaseRetry, true, s.attempts ++ [attempt]⟩
    Underway set req s' ∧ attemptsLeft set req s' < attemptsLeft set req s := by
  intro s'
  have hforward : (visited s').Pairwise Forward := (hs.finished hretry h).forward
  have hleft' : attemptsLeft set req s' =
      remaining (groups set req).length set.retryTimes (place req counters.increaseRetry) :=
    if_pos rfl
  -- the budget follows from the attempts that are left
  have hbudget (hless : attemptsLeft set req s' < attemptsLeft set req s) :
      s'.attempts.length + attemptsLeft set req s' ≤ maxAttempts set req := by
    have hattempts := hs.attempts
    have hlength : s'.attempts.length = s.attempts.length + 1 := by simp [s']
    omega
  obtain ⟨hmeta, rfl, rfl⟩ | ⟨-, rfl⟩ | ⟨hmeta, selection, q, rfl, hwalks⟩ :=
    getChannel_cases hs.reset h
  · have hplace : place req s.counters.increaseRetry = _ := place_increaseRetry hs.reset
    have hless : attemptsLeft set req s' < attemptsLeft set req s := by
      have hleft : attemptsLeft set req s = maxAttempts set req := by
        simp [attemptsLeft, hmeta]
      rw [hleft', hleft, hplace]
      exact remaining_lt_maxAttempts (succ_pos _)
    refine ⟨⟨resetNextTry_increaseRetry _, hbudget hless, ?_, hforward⟩, hless⟩
    rw [visited_unselected s _ rfl]
    change Behind _ _ (place req s.counters.increaseRetry)
    rw [hplace]
    exact hs.behind.of_tried_le (le_succ _)
  · exact absurd rfl hfound
  · have hless : attemptsLeft set req s' < attemptsLeft set req s := by
      have hleft : attemptsLeft set req s =
          remaining (groups set req).length set.retryTimes (place req s.counters) :=
        if_pos hmeta
      rw [hleft', hleft]
      exact hwalks.visits.remaining_lt (by rwa [place_tried])
    refine ⟨⟨resetNextTry_increaseRetry _, hbudget hless, ?_, hforward⟩, hless⟩
    rw [visited_selected, hwalks.priority]
    exact hwalks.visits.behind (fun _ _ _ h => targetPriority_antitone _ h) hs.behind

end

end

private theorem relayRound_kept : let next := relayRound set req outcomes randoms s
    if next.2 = true then
      Underway set req next.1 ∧ attemptsLeft set req next.1 < attemptsLeft set req s
    else Finished set req next.1 := by
  unfold relayRound
  split
  · next hretry =>
    generalize hnext : getChannel set req (randoms s.attempts.length) s = next
    obtain ⟨attempt, counters⟩ := next
    have hfinished := hs.finished hretry hnext
    dsimp only
    split
    · exact hfinished
    · exact hfinished
    · exact hfinished
    · next hfound _ =>
      split
      · exact hs.again hretry hnext (fun h => hfound h)
      · exact hfinished
  · exact ⟨le_trans (le_add_right _ _) hs.attempts, hs.forward⟩

end

end Rounds

private theorem underway_start (set : Setting) (req : Request) (autoGroupIndex : Option Nat) :
    Underway set req (start autoGroupIndex) := by
  refine ⟨rfl, ?_, ?_, List.Pairwise.nil⟩
  · simp [start, attemptsLeft]
  · intro v hv
    simp [start, visited, selections] at hv

theorem stable_relay (set : Setting) (req : Request) (autoGroupIndex : Option Nat)
    (outcomes : Nat → Outcome) (randoms : Nat → Nat) :
    Stable (relay set req autoGroupIndex outcomes randoms) :=
  stable_loopFrom (fun s => Stable.const (some (relayRound set req outcomes randoms s)))
    (start autoGroupIndex)

/-- The loop is left after at most `maxAttempts` attempts; those that selected a channel
never go back to an earlier group, nor up in priority within one. -/
theorem retries_move_forward (set : Setting) (req : Request) (autoGroupIndex : Option Nat)
    (outcomes : Nat → Outcome) (randoms : Nat → Nat) :
    ∃ s, (∀ fuel, maxAttempts set req < fuel →
        relay set req autoGroupIndex outcomes randoms fuel = some s) ∧
      s.attempts.length ≤
        1 + (set.retryTimes + 1) * max 1 (getUserAutoGroup set req.userGroup).length ∧
      (selections s).Pairwise fun earlier later =>
        earlier.groupIndex ≤ later.groupIndex ∧
        (earlier.groupIndex = later.groupIndex →
          later.channel.priority ≤ earlier.channel.priority) := by
  have hleft : attemptsLeft set req (start autoGroupIndex) < maxAttempts set req + 1 := by
    simp [start, attemptsLeft]
  obtain ⟨s, hs, hfinished⟩ : ∃ s, relay set req autoGroupIndex outcomes randoms
      (maxAttempts set req + 1) = some s ∧ Finished set req s := by
    refine loop_returns_of_measure (attemptsLeft set req) (fun s hs => ?_)
      (underway_start set req autoGroupIndex) hleft
    exact ⟨relayRound set req outcomes randoms s, rfl, relayRound_kept hs⟩
  refine ⟨s, fun fuel hfuel => ?_, hfinished.attempts, ?_⟩
  · exact (stable_relay set req autoGroupIndex outcomes randoms).of_le hs hfuel
  · exact pairwise_map.mp hfinished.forward

def twoGroups : Setting where
  retryTimes := 1
  memoryCacheEnabled := true
  autoGroups := ["default", "vip"]
  userUsableGroup := fun _ _ => true
  channels := fun _ _ => [⟨1, 0, 5⟩, ⟨2, 10, 5⟩]
  formatMatchingModelName := id
  isAlwaysSkipRetryCode := fun _ => false
  shouldRetryByStatusCode := fun _ => true

example :
    (relay twoGroups ⟨"auto", "gpt-4o", "default", true, false⟩ (some 0)
        (fun _ => .failed ⟨false, false, false, false, 500, ""⟩) (fun _ => 0) 10).map
        (fun s => (s.attempts.length, visited s)) =
      some (5, [(0, 0), (1, 10), (1, 0)]) := by
  decide

end NewApi.Retry
