import NewApi.Relay.Retry

/-!
# The schedule of a cross-group retry

A token of the group `auto` with cross-group retry is meant to try the priorities
of a group from the highest to the lowest, each once, and then go on to the next
group.  The selection does not report that the priorities of a group are used up:
it stays at the lowest one until the counter has reached `RetryTimes`.
-/

namespace NewApi.Retry

open Foundation List Attempt

/-! ## A request from the distributor on -/

def Selection.pair (selection : Selection) : String × Int :=
  (selection.group, selection.channel.priority)

section

variable (set : Setting) (req : Request)

def distribute (random : Nat) : Option Selection × Counters :=
  cacheGetRandomSatisfiedChannel set req random ⟨⟨some 0, false⟩, none⟩

def Attempt.pair (first : Selection) : Attempt → Option (String × Int)
  | .given => some first.pair
  | .selected selection => some selection.pair
  | .notFound => none

def serve (random : Nat) (outcomes : Nat → Outcome) (randoms : Nat → Nat) (fuel : Nat) :
    Option (List (String × Int)) :=
  match distribute set req random with
  | (none, _) => some []
  | (some first, counters) =>
    (relay set req counters.autoGroupIndex outcomes randoms fuel).map fun s =>
      s.attempts.filterMap (pair first)

def priorities (group : String) : List Int :=
  sortedUniquePriorities (candidates set group req.modelName)

def intended : List (String × Int) :=
  (getUserAutoGroup set req.userGroup).flatMap fun group =>
    (priorities set req group).map (Prod.mk group)

def servedGroups : List String :=
  (getUserAutoGroup set req.userGroup).filter fun group =>
    decide (candidates set group req.modelName ≠ [])

/-! ## What the counters still have before them -/

def levels (group : String) (q : Nat) : List (String × Int) :=
  if candidates set group req.modelName = [] then []
  else
    (List.range' q (set.retryTimes + 1 - q)).map fun retry =>
      (group, targetPriority (candidates set group req.modelName) retry)

def plan : List String → Nat → List (String × Int)
  | [], _ => []
  | group :: rest, q => levels set req group q ++ rest.flatMap (levels set req · 0)

def wholePlan : List (String × Int) := plan set req (getUserAutoGroup set req.userGroup) 0

end

section

variable {set : Setting} {req : Request}

theorem plan_zero (groups : List String) :
    plan set req groups 0 = groups.flatMap (levels set req · 0) := by
  cases groups with
  | nil | cons => rfl

variable {group : String} {counters : Counters} {attempt : Attempt}

theorem plan_of_empty (h : candidates set group req.modelName = []) (rest : List String) (q : Nat) :
    plan set req (group :: rest) q = plan set req rest 0 := by
  rw [plan_zero, plan, levels, if_pos h, nil_append]

private theorem plan_of_lt (h : candidates set group req.modelName ≠ [])
    (rest : List String) {q : Nat} (hq : q < set.retryTimes) :
    plan set req (group :: rest) q =
      (group, targetPriority (candidates set group req.modelName) q) ::
        plan set req (group :: rest) (q + 1) := by
  have hlength : set.retryTimes + 1 - q = (set.retryTimes + 1 - (q + 1)) + 1 := by omega
  rw [plan, plan, levels, levels, if_neg h, if_neg h, hlength, range'_succ]
  rfl

private theorem plan_of_last (h : candidates set group req.modelName ≠ []) (rest : List String) :
    plan set req (group :: rest) set.retryTimes =
      (group, targetPriority (candidates set group req.modelName) set.retryTimes) ::
        plan set req rest 0 := by
  have hlength : set.retryTimes + 1 - set.retryTimes = 1 := by omega
  rw [plan_zero, plan, levels, if_neg h, hlength]
  rfl

structure Before (set : Setting) (req : Request) (counters : Counters)
    (rest : List (String × Int)) : Prop where
  reset : counters.param.resetNextTry = false
  tried : counters.param.getRetry ≤ set.retryTimes
  rest : plan set req ((getUserAutoGroup set req.userGroup).drop
    (counters.autoGroupIndex.getD 0)) counters.param.getRetry = rest

def Selects (set : Setting) (req : Request) (result : Option Selection × Counters) :
    List (String × Int) → Prop
  | [] => result.1 = none
  | pair :: rest => ∃ selection, result.1 = some selection ∧ selection.pair = pair ∧
      Before set req result.2.increaseRetry rest ∧
      (0 < set.retryTimes → result.2.param.getRetry < set.retryTimes)

theorem getRetry_increaseRetry {param : RetryParam} (h : param.resetNextTry = false) :
    param.increaseRetry.getRetry = param.getRetry + 1 := by
  simp [RetryParam.increaseRetry, RetryParam.getRetry, h]

theorem selectAuto_selects (hcross : req.crossGroupRetry = true) (random startGroupIndex : Nat)
    {i : Nat} {rest : List String} (hrest : rest = (getUserAutoGroup set req.userGroup).drop i)
    (hmoved : i > startGroupIndex → counters.param.getRetry = 0)
    (hreset : counters.param.resetNextTry = false)
    (htried : counters.param.getRetry ≤ set.retryTimes) :
    Selects set req (selectAuto set req random startGroupIndex i rest counters)
      (plan set req rest counters.param.getRetry) := by
  induction rest generalizing i counters with
  | nil => rfl
  | cons group rest ih =>
    have hdrop : rest = (getUserAutoGroup set req.userGroup).drop (i + 1) := by
      rw [← drop_drop, ← hrest]
      rfl
    have hpriority : (if i > startGroupIndex then 0 else counters.param.getRetry) =
        counters.param.getRetry := by
      split
      · next hgt => exact (hmoved hgt).symm
      · rfl
    have hfound := getRandomSatisfiedChannel_isSome_iff set group req.modelName
      counters.param.getRetry random
    simp only [selectAuto, hpriority]
    cases hchannel : getRandomSatisfiedChannel set group req.modelName counters.param.getRetry
        random with
    | none =>
      have hempty : candidates set group req.modelName = [] := by
        by_contra hne
        rw [hchannel] at hfound
        exact absurd (hfound.mpr hne) (by decide)
      rw [plan_of_empty hempty]
      exact ih hdrop (fun _ => rfl) hreset (Nat.zero_le _)
    | some =>
      have hne : candidates set group req.modelName ≠ [] := hfound.mp (by rw [hchannel]; rfl)
      have hlevel := priority_of_getRandomSatisfiedChannel hchannel
      dsimp only
      by_cases hlast : counters.param.getRetry ≥ set.retryTimes
      · rw [if_pos ⟨hcross, hlast⟩]
        have hequal := Nat.le_antisymm htried hlast
        rw [hequal, plan_of_last hne, ← hequal]
        refine ⟨_, rfl, congrArg (Prod.mk group) hlevel, ⟨rfl, Nat.zero_le _, ?_⟩, id⟩
        rw [hdrop]
        rfl
      · rw [if_neg fun h => hlast h.2]
        have hlt := Nat.lt_of_not_le hlast
        rw [plan_of_lt hne rest hlt]
        refine ⟨_, rfl, congrArg (Prod.mk group) hlevel, ⟨?_, ?_, ?_⟩, fun _ => hlt⟩
        · exact resetNextTry_increaseRetry _
        · exact (getRetry_increaseRetry hreset).trans_le hlt
        · rw [hrest]
          exact congrArg _ (getRetry_increaseRetry hreset)

private theorem selectAuto_param (hpos : 0 < set.retryTimes) (random startGroupIndex i : Nat)
    (rest : List String) (hretry : counters.param.getRetry = 0)
    (hreset : counters.param.resetNextTry = false) :
    (selectAuto set req random startGroupIndex i rest counters).2.param.getRetry = 0 ∧
      (selectAuto set req random startGroupIndex i rest counters).2.param.resetNextTry =
        false := by
  induction rest generalizing i counters with
  | nil => exact ⟨hretry, hreset⟩
  | cons group rest ih =>
    have hpriority : (if i > startGroupIndex then 0 else counters.param.getRetry) = 0 := by
      split
      · rfl
      · exact hretry
    simp only [selectAuto, hpriority]
    split
    · exact ih (i + 1) rfl hreset
    · rw [if_neg fun h => absurd h.2 (by omega)]
      exact ⟨hretry, hreset⟩

theorem cacheGet_selects (hauto : req.tokenGroup = "auto") (hcross : req.crossGroupRetry = true)
    (random : Nat) {rest : List (String × Int)} (h : Before set req counters rest) :
    Selects set req (cacheGetRandomSatisfiedChannel set req random counters) rest := by
  unfold cacheGetRandomSatisfiedChannel
  rw [if_pos hauto, ← h.rest]
  split
  · next hnone =>
    have hempty : getUserAutoGroup set req.userGroup = [] := by
      rw [getUserAutoGroup, length_eq_zero_iff.mp hnone]
      rfl
    rw [hempty, drop_nil]
    rfl
  · exact selectAuto_selects hcross random _ rfl (fun hgt => absurd hgt (Nat.lt_irrefl _))
      h.reset h.tried

/-! ## The attempts of a request -/

/-- Every attempt fails, with an error that is retried as long as retries are left. -/
def AlwaysRetryable (set : Setting) (req : Request) (outcomes : Nat → Outcome) : Prop :=
  ∀ n, ∃ e, outcomes n = .failed e ∧ ∀ retryTimes : Int, 0 < retryTimes →
    shouldRetry set req e retryTimes = true

variable {outcomes : Nat → Outcome} {randoms : Nat → Nat}

theorem getChannel_start (autoGroupIndex : Option Nat) (random : Nat) :
    getChannel set req random (start autoGroupIndex) =
      (.given, (start autoGroupIndex).counters) := rfl

variable {s : State} {α β : Type*} {f : α → List β}

theorem relayRound_failed (htried : s.counters.param.getRetry ≤ set.retryTimes)
    (hattempt : attempt ≠ .notFound)
    (hnext : getChannel set req (randoms s.attempts.length) s = (attempt, counters)) {e : Failure}
    (houtcome : outcomes s.attempts.length = .failed e) :
    relayRound set req outcomes randoms s =
      if shouldRetry set req e (set.retryTimes - counters.param.getRetry) = true then
        (⟨counters.increaseRetry, true, s.attempts ++ [attempt]⟩, true)
      else (⟨counters, true, s.attempts ++ [attempt]⟩, false) := by
  unfold relayRound
  rw [if_pos htried, hnext, houtcome]
  cases attempt with
  | notFound => exact absurd rfl hattempt
  | given | selected => rfl

theorem relayRound_again (hfails : AlwaysRetryable set req outcomes)
    (htried : s.counters.param.getRetry ≤ set.retryTimes) (hattempt : attempt ≠ .notFound)
    (hnext : getChannel set req (randoms s.attempts.length) s = (attempt, counters))
    (hleft : counters.param.getRetry < set.retryTimes) :
    relayRound set req outcomes randoms s =
      (⟨counters.increaseRetry, true, s.attempts ++ [attempt]⟩, true) := by
  obtain ⟨e, houtcome, hretry⟩ := hfails s.attempts.length
  rw [relayRound_failed htried hattempt hnext houtcome, if_pos (hretry _ (by omega))]

def rounds (set : Setting) (req : Request) (outcomes : Nat → Outcome) (randoms : Nat → Nat)
    (s : State) : Nat → Option State :=
  loopFrom (fun _ s => some (relayRound set req outcomes randoms s)) s

theorem returns_rounds {next : State} {again : Bool}
    (hround : relayRound set req outcomes randoms s = (next, again)) {s' : State}
    (hrest : if again then Returns (rounds set req outcomes randoms next) s' else next = s') :
    Returns (rounds set req outcomes randoms s) s' := by
  have hstable := fun s => Stable.const (some (relayRound set req outcomes randoms s))
  exact (returns_loopFrom_iff hstable).mpr ⟨_, ⟨0, congrArg some hround⟩, hrest⟩

private theorem relay_once (hzero : set.retryTimes = 0) (hfails : AlwaysRetryable set req outcomes)
    (autoGroupIndex : Option Nat) :
    ∃ s, Returns (relay set req autoGroupIndex outcomes randoms) s ∧ s.attempts = [.given] := by
  obtain ⟨e, houtcome, -⟩ := hfails 0
  have hround : relayRound set req outcomes randoms (start autoGroupIndex) = _ :=
    relayRound_failed (Nat.zero_le _) (by decide) (getChannel_start _ _) houtcome
  split at hround
  · -- the counter has passed `RetryTimes`
    have hstop : relayRound set req outcomes randoms
        ⟨(start autoGroupIndex).counters.increaseRetry, true, [.given]⟩ =
          (⟨(start autoGroupIndex).counters.increaseRetry, true, [.given]⟩, false) := by
      refine if_neg (Nat.not_le_of_lt ?_)
      rw [hzero]
      exact Nat.one_pos
    exact ⟨_, returns_rounds hround (returns_rounds hstop rfl), rfl⟩
  · exact ⟨_, returns_rounds hround rfl, rfl⟩

private theorem distribute_param (hauto : req.tokenGroup = "auto")
    (hpos : 0 < set.retryTimes) (random : Nat) :
    (distribute set req random).2.param.getRetry = 0 ∧
      (distribute set req random).2.param.resetNextTry = false := by
  unfold distribute cacheGetRandomSatisfiedChannel
  rw [if_pos hauto]
  split
  · exact ⟨rfl, rfl⟩
  · exact selectAuto_param hpos random _ _ _ rfl rfl

theorem distribute_selects (hauto : req.tokenGroup = "auto") (hcross : req.crossGroupRetry = true)
    (random : Nat) :
    Selects set req (distribute set req random) (wholePlan set req) :=
  cacheGet_selects hauto hcross random ⟨rfl, Nat.zero_le _, rfl⟩

theorem loop_attempts (hauto : req.tokenGroup = "auto") (hcross : req.crossGroupRetry = true)
    (hfails : AlwaysRetryable set req outcomes)
    (hpos : 0 < set.retryTimes) (first : Selection) {rest : List (String × Int)}
    (hmeta : s.channelMeta = true) (hrest : Before set req s.counters rest) :
    ∃ s', Returns (rounds set req outcomes randoms s) s' ∧
      s'.attempts.filterMap (pair first) = s.attempts.filterMap (pair first) ++ rest := by
  have hselects := cacheGet_selects hauto hcross (randoms s.attempts.length) hrest
  generalize hresult : cacheGetRandomSatisfiedChannel set req (randoms s.attempts.length)
    s.counters = result at hselects
  obtain ⟨selected, counters⟩ := result
  induction rest generalizing s selected counters with
  | nil =>
    obtain rfl : selected = none := hselects
    have hnext : getChannel set req (randoms s.attempts.length) s = (.notFound, counters) := by
      rw [getChannel, if_pos hmeta, hresult]
    have hround : relayRound set req outcomes randoms s =
        (⟨counters, true, s.attempts ++ [.notFound]⟩, false) := by
      unfold relayRound
      rw [if_pos hrest.tried, hnext]
    refine ⟨_, returns_rounds hround rfl, ?_⟩
    simp [pair]
  | cons pair rest ih =>
    obtain ⟨selection, rfl, hpair, hbefore, hleft⟩ := hselects
    have hnext : getChannel set req (randoms s.attempts.length) s =
        (.selected selection, counters) := by
      rw [getChannel, if_pos hmeta, hresult]
    have hround := relayRound_again hfails hrest.tried (by simp) hnext (hleft hpos)
    obtain ⟨s', hreturns, hattempts⟩ := ih
      (s := ⟨counters.increaseRetry, true, s.attempts ++ [.selected selection]⟩) rfl hbefore _ _
      rfl (cacheGet_selects hauto hcross _ hbefore)
    refine ⟨s', returns_rounds hround hreturns, ?_⟩
    rw [hattempts]
    simp [Attempt.pair, hpair]

theorem relay_attempts (hauto : req.tokenGroup = "auto") (hcross : req.crossGroupRetry = true)
    (hfails : AlwaysRetryable set req outcomes) (hpos : 0 < set.retryTimes) (first : Selection)
    {autoGroupIndex : Option Nat} {rest : List (String × Int)}
    (hrest : Before set req ⟨⟨some 1, false⟩, autoGroupIndex⟩ rest) :
    ∃ s, Returns (relay set req autoGroupIndex outcomes randoms) s ∧
      s.attempts.filterMap (pair first) = first.pair :: rest := by
  have hround : relayRound set req outcomes randoms (start autoGroupIndex) =
      (⟨⟨⟨some 1, false⟩, autoGroupIndex⟩, true, [.given]⟩, true) :=
    relayRound_again hfails (Nat.zero_le _) (by decide) (getChannel_start _ _) hpos
  obtain ⟨s, hreturns, hattempts⟩ := loop_attempts hauto hcross hfails hpos first
    (s := ⟨⟨⟨some 1, false⟩, autoGroupIndex⟩, true, [.given]⟩) rfl hrest
  refine ⟨s, returns_rounds hround hreturns, ?_⟩
  rw [hattempts]
  rfl

theorem returns_serve (hauto : req.tokenGroup = "auto") (hcross : req.crossGroupRetry = true)
    (hfails : AlwaysRetryable set req outcomes) (random : Nat) :
    Returns (serve set req random outcomes randoms)
      (if set.retryTimes = 0 then (wholePlan set req).take 1 else wholePlan set req) := by
  have hselects : Selects set req (distribute set req random) _ :=
    distribute_selects hauto hcross random
  have hparam (hpos : 0 < set.retryTimes) := distribute_param hauto hpos random
  unfold serve
  generalize distribute set req random = result at hselects hparam
  obtain ⟨selected, counters⟩ := result
  cases hplan : wholePlan set req with
  | nil =>
    rw [hplan] at hselects
    obtain rfl : selected = none := hselects
    rw [take_nil, ite_self]
    exact ⟨0, rfl⟩
  | cons pair rest =>
    rw [hplan] at hselects
    obtain ⟨first, rfl, rfl, hbefore, -⟩ := hselects
    by_cases hzero : set.retryTimes = 0
    · obtain ⟨s, hreturns, hattempts⟩ : ∃ s, Returns (relay set req counters.autoGroupIndex
          outcomes randoms) s ∧ s.attempts = [.given] := relay_once hzero hfails _
      have hmapped := hreturns.map fun s => s.attempts.filterMap (pair first)
      rw [hattempts] at hmapped
      rw [if_pos hzero, take_succ_cons, take_zero]
      exact hmapped
    · have hpos := Nat.pos_of_ne_zero hzero
      obtain ⟨hretry, hreset⟩ := hparam hpos
      have hnext : counters.increaseRetry.param.getRetry = 1 := by
        rw [Counters.increaseRetry, getRetry_increaseRetry hreset, hretry]
      have hstart : Before set req ⟨⟨some 1, false⟩, counters.autoGroupIndex⟩ rest := by
        refine ⟨rfl, hpos, ?_⟩
        rw [← hbefore.rest, hnext]
        rfl
      obtain ⟨s, hreturns, hattempts⟩ : ∃ s, Returns (relay set req counters.autoGroupIndex
          outcomes randoms) s ∧ _ := relay_attempts hauto hcross hfails hpos first hstart
      have hmapped := hreturns.map fun s => s.attempts.filterMap (pair first)
      rw [hattempts] at hmapped
      rw [if_neg hzero]
      exact hmapped

/-! ## The plan and the schedule that is meant -/

theorem flatMap_filter_of_nil {p : α → Bool} (h : ∀ a, p a = false → f a = []) (l : List α) :
    l.flatMap f = (l.filter p).flatMap f := by
  induction l with
  | nil => rfl
  | cons a l ih =>
    rw [flatMap_cons, filter_cons, ih]
    cases hp : p a with
    | false => rw [h a hp]; rfl
    | true => rfl

private theorem length_le_length_flatMap {l : List α} (h : ∀ a ∈ l, f a ≠ []) :
    l.length ≤ (l.flatMap f).length := by
  induction l with
  | nil => exact Nat.le_refl 0
  | cons a l ih =>
    have hfirst := length_pos_iff.mpr (h a mem_cons_self)
    have hrest := ih fun b hb => h b (mem_cons_of_mem a hb)
    rw [flatMap_cons, length_append, length_cons]
    omega

theorem plan_eq_flatMap : wholePlan set req =
    (servedGroups set req).flatMap (levels set req · 0) := by
  rw [wholePlan, plan_zero]
  refine flatMap_filter_of_nil (fun group hgroup => if_pos ?_) _
  simpa using hgroup

theorem intended_eq_flatMap : intended set req =
    (servedGroups set req).flatMap fun group => (priorities set req group).map (Prod.mk group) := by
  refine flatMap_filter_of_nil (fun group hgroup => ?_) _
  have hempty : candidates set group req.modelName = [] := by simpa using hgroup
  rw [priorities, hempty]
  rfl

variable {group : String}

theorem mem_servedGroups (h : group ∈ servedGroups set req) :
    candidates set group req.modelName ≠ [] := by
  simpa using (mem_filter.mp h).2

theorem priorities_ne_nil (h : group ∈ servedGroups set req) : priorities set req group ≠ [] := by
  obtain ⟨channel, hchannel⟩ := exists_mem_of_ne_nil _ (mem_servedGroups h)
  exact ne_nil_of_mem (mem_sortedUniquePriorities.mpr ⟨channel, hchannel, rfl⟩)

private theorem length_levels (h : group ∈ servedGroups set req) :
    (levels set req group 0).length = set.retryTimes + 1 := by
  rw [levels, if_neg (mem_servedGroups h), length_map, length_range', Nat.sub_zero]

theorem length_plan : (wholePlan set req).length =
    (servedGroups set req).length * (set.retryTimes + 1) := by
  rw [plan_eq_flatMap, List.length_flatMap,
    map_congr_left fun group hgroup => length_levels hgroup, map_const',
    sum_replicate_nat]

theorem length_servedGroups_le : (servedGroups set req).length ≤ (intended set req).length := by
  rw [intended_eq_flatMap]
  refine length_le_length_flatMap fun group hgroup => ?_
  simpa using priorities_ne_nil hgroup

private theorem levels_eq_priorities (h : group ∈ servedGroups set req)
    (hlength : (priorities set req group).length = set.retryTimes + 1) :
    levels set req group 0 = (priorities set req group).map (Prod.mk group) := by
  rw [levels, if_neg (mem_servedGroups h)]
  refine ext_getElem (by simp [hlength]) fun i hi hi' => ?_
  have hlt : i < (priorities set req group).length := by simpa using hi'
  have hmin : min i ((priorities set req group).length - 1) = i := by omega
  have htarget : targetPriority (candidates set group req.modelName) i =
      (priorities set req group)[i] := by
    change (priorities set req group).getD (min i ((priorities set req group).length - 1)) 0 = _
    rw [hmin, getD_eq_getElem _ _ hlt]
  simp [htarget]

private theorem plan_eq_intended_iff (hretries : (intended set req).length ≤ set.retryTimes + 1) :
    wholePlan set req = intended set req ↔
      servedGroups set req = [] ∨ ∃ group, servedGroups set req = [group] ∧
        (priorities set req group).length = set.retryTimes + 1 := by
  constructor
  · intro hequal
    have hlength : (servedGroups set req).length * (set.retryTimes + 1) =
        (intended set req).length := by rw [← length_plan, hequal]
    have hone : (servedGroups set req).length ≤ 1 := by
      by_contra hmany
      have htwo := Nat.mul_le_mul_right (set.retryTimes + 1) (Nat.lt_of_not_le hmany)
      omega
    cases hserved : servedGroups set req with
    | nil => exact .inl rfl
    | cons group rest =>
      obtain rfl : rest = [] := by
        rw [hserved] at hone
        simpa using hone
      refine .inr ⟨group, rfl, ?_⟩
      rw [intended_eq_flatMap, hserved] at hlength
      simpa using hlength.symm
  · rintro (hnone | ⟨group, hserved, hlength⟩)
    · rw [plan_eq_flatMap, intended_eq_flatMap, hnone]
      rfl
    · have hgroup : group ∈ servedGroups set req := by rw [hserved]; exact mem_singleton_self _
      rw [plan_eq_flatMap, intended_eq_flatMap, hserved, flatMap_singleton, flatMap_singleton]
      exact levels_eq_priorities hgroup hlength

private theorem take_plan (hretries : (intended set req).length ≤ set.retryTimes + 1)
    (hzero : set.retryTimes = 0) :
    (wholePlan set req).take 1 = wholePlan set req := by
  refine take_of_length_le ?_
  have hserved : (servedGroups set req).length ≤ (intended set req).length := length_servedGroups_le
  rw [length_plan, hzero]
  omega

end

theorem stable_serve (set : Setting) (req : Request) (random : Nat) (outcomes : Nat → Outcome)
    (randoms : Nat → Nat) : Stable (serve set req random outcomes randoms) := by
  unfold serve
  split
  · exact Stable.const _
  · exact (stable_relay _ _ _ _ _).map _

/--
With enough retries for every pair of a group and a priority, and if every attempt
fails, a request makes the attempts that are meant exactly when no group has a
channel, or one group alone and as many priorities as there are tries.
-/
theorem cross_group_schedule_iff (set : Setting) (req : Request)
    (hauto : req.tokenGroup = "auto") (hcross : req.crossGroupRetry = true) (random : Nat)
    (outcomes : Nat → Outcome) (randoms : Nat → Nat) (hfails : AlwaysRetryable set req outcomes)
    (hretries : (intended set req).length ≤ set.retryTimes + 1) :
    Returns (serve set req random outcomes randoms) (intended set req) ↔
      servedGroups set req = [] ∨ ∃ group, servedGroups set req = [group] ∧
        (priorities set req group).length = set.retryTimes + 1 := by
  have hserve : Returns (serve set req random outcomes randoms) (wholePlan set req) := by
    have hreturns : Returns (serve set req random outcomes randoms) _ :=
      returns_serve hauto hcross hfails random
    split at hreturns
    · next hzero => rwa [take_plan hretries hzero] at hreturns
    · exact hreturns
  rw [← plan_eq_intended_iff hretries]
  constructor
  · exact Returns.unique (stable_serve _ _ _ _ _) hserve
  · intro hequal
    rwa [← hequal]

def oneServed : Setting :=
  { twoGroups with
    channels := fun group _ => if group = "vip" then [⟨1, 0, 5⟩, ⟨2, 10, 5⟩] else [] }

theorem cross_group_schedule_one_group :
    Returns (serve oneServed ⟨"auto", "gpt-4o", "default", true, false⟩ 0
        (fun _ => .failed ⟨false, false, false, false, 500, ""⟩) (fun _ => 0))
      [("vip", 10), ("vip", 0)] := by
  refine (cross_group_schedule_iff oneServed ⟨"auto", "gpt-4o", "default", true, false⟩ rfl rfl 0
    (fun _ => .failed ⟨false, false, false, false, 500, ""⟩) (fun _ => 0) ?_ (by decide)).mpr
    (.inr ⟨"vip", by decide, by decide⟩)
  intro n
  refine ⟨_, rfl, fun retryTimes hpos => ?_⟩
  simp [shouldRetry, oneServed, twoGroups, Int.not_le.mpr hpos]

/-- The example of the comment: two groups with two priorities each and three retries.  Each
group is tried four times, three of them at its lowest priority. -/
theorem cross_group_schedule_repeats :
    serve { twoGroups with retryTimes := 3 } ⟨"auto", "gpt-4o", "default", true, false⟩ 0
        (fun _ => .failed ⟨false, false, false, false, 500, ""⟩) (fun _ => 0) 10 =
      some [("default", 10), ("default", 0), ("default", 0), ("default", 0),
        ("vip", 10), ("vip", 0), ("vip", 0), ("vip", 0)] ∧
    intended { twoGroups with retryTimes := 3 } ⟨"auto", "gpt-4o", "default", true, false⟩ =
      [("default", 10), ("default", 0), ("vip", 10), ("vip", 0)] := by
  decide

end NewApi.Retry
