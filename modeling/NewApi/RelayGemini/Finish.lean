import NewApi.RelayGemini.Answer

/-!
# Finish reasons of a Gemini stream

A chunk of `GeminiChatStreamHandler` carries the reason of its own candidates,
which is `tool_calls` for a candidate with a call and missing for one that
stops.  After a response in which a candidate stops, a stop chunk follows: its
index is always 0, and its reason is the one that all candidates share.
-/

namespace NewApi.RelayGemini

open Foundation List Dto Emitter Candidate

universe u

/-- One reason is given, and nothing after it. -/
def EndsWith (reason : String) (reasons : List (Option String)) : Prop :=
  ∃ n, reasons = replicate n none ++ [some reason]

def finishesAt (index : Nat) (chunks : List StreamResponse) : List (Option String) :=
  (choicesAt index chunks).map StreamChoice.finishReason

section

variable {α : Type u}

/-- The candidates of a response.  The first of the first response is marked: if
it has calls, its reason is taken off. -/
def turn (first : Bool) : List (Candidate α) → List (Bool × Candidate α)
  | [] => []
  | candidate :: others => (first, candidate) :: others.map fun other => (false, other)

def turns : List (GeminiChatResponse α) → List (List (Bool × Candidate α))
  | [] => []
  | response :: responses =>
    turn true response.candidates :: responses.map fun r => turn false r.candidates

variable (index : Nat) (candidate : Bool × Candidate α) (t : List (Bool × Candidate α))
  (ts : List (List (Bool × Candidate α)))

def turnAt : List (Bool × Candidate α) := t.filter fun c => c.2.index = index

def turnsAt : List (Bool × Candidate α) := ts.flatMap (turnAt index)

/-- Its own chunk gives a reason. -/
def speaks : Bool :=
  if hasCalls candidate.2 then !candidate.1
  else candidate.2.finishReason.isSome && candidate.2.finishReason ≠ some "STOP"

/-- A stop chunk follows. -/
def stops : Bool := t.any fun c => c.2.finishReason = some "STOP"

/-- From here on the shared reason is `tool_calls`. -/
def leads : Bool :=
  match t with
  | [] => false
  | first :: _ => hasCalls first.2

/-- The last candidate gives the reason, no other does, and it is right. -/
def EndsItself (candidates : List (Bool × Candidate α)) : Prop :=
  ∃ init last, candidates = init ++ [last] ∧ (∀ c ∈ init, speaks c = false) ∧
    speaks last = true ∧ (hasCalls last.2 = true ∨ ∀ c ∈ init, hasCalls c.2 = false)

/-- The one stop chunk gives the reason of candidate 0, and it is right. -/
def EndsAtStop : Prop :=
  ∃ before t after, ts = before ++ t :: after ∧ stops t = true ∧
    (∀ c ∈ turnsAt 0 (before ++ [t]), speaks c = false) ∧
    (∀ other ∈ before, stops other = false) ∧
    (∀ other ∈ after, turnAt 0 other = [] ∧ stops other = false) ∧
    ((turnsAt 0 ts).any fun c => hasCalls c.2) = (before ++ [t]).any leads

def FinishesOnce : Prop :=
  (EndsItself (turnsAt index ts) ∧ (index = 0 → ∀ t ∈ ts, stops t = false)) ∨
    (index = 0 ∧ EndsAtStop ts)

/-! ## What is told of one choice -/

def said : Option String :=
  if hasCalls candidate.2 then if candidate.1 then none else some "tool_calls"
  else
    match candidate.2.finishReason with
    | some reason => if reason = "STOP" then none else some (finishReasonOpenAI reason)
    | none => none

def shared (reason : String) : String := if leads t then "tool_calls" else reason

def told (reason : String) : List (List (Bool × Candidate α)) → List (Option String)
  | [] => []
  | t :: ts =>
    (turnAt index t).map said ++
      ((if index = 0 ∧ stops t = true then [some (shared t reason)] else []) ++
        told (shared t reason) ts)

end

section

variable {reason : String} {first second : List (Option String)}

theorem endsWith_append_iff :
    EndsWith reason (first ++ second) ↔
      (EndsWith reason first ∧ second = []) ∨
        ((∀ r ∈ first, r = none) ∧ EndsWith reason second) := by
  constructor
  · rintro ⟨n, heq⟩
    rcases eq_nil_or_concat' second with rfl | ⟨init, r, rfl⟩
    · exact .inl ⟨⟨n, (append_nil _).symm.trans heq⟩, rfl⟩
    · obtain ⟨hinit, hr⟩ := append_inj' ((append_assoc ..).trans heq) rfl
      obtain ⟨-, hfirst, hinit⟩ := append_eq_replicate_iff.mp hinit
      refine .inr ⟨fun r hr => ?_, _, congrArg₂ _ hinit hr⟩
      rw [hfirst] at hr
      exact eq_of_mem_replicate hr
  · rintro (⟨hfirst, rfl⟩ | ⟨hfirst, n, rfl⟩)
    · rwa [append_nil]
    · rw [eq_replicate_of_mem hfirst]
      exact ⟨first.length + n, by rw [replicate_add, append_assoc]⟩

private theorem endsWith_mid_iff {r : String} :
    EndsWith reason (first ++ some r :: second) ↔
      (∀ r ∈ first, r = none) ∧ r = reason ∧ second = [] := by
  have hcons : EndsWith reason (some r :: second) ↔ r = reason ∧ second = [] := by
    constructor
    · rintro ⟨n, heq⟩
      cases n with
      | zero => simpa using heq
      | succ => simp [replicate_succ] at heq
    · rintro ⟨rfl, rfl⟩
      exact ⟨0, rfl⟩
  rw [endsWith_append_iff, hcons]
  simp

end

section

variable {α : Type u} {index : Nat} {reason : String} {c : Bool × Candidate α}
  {ts : List (List (Bool × Candidate α))}

private theorem said_eq_none_iff : said c = none ↔ speaks c = false := by
  unfold said speaks
  cases hasCalls c.2 with
  | true => cases c.1 <;> simp
  | false =>
    cases c.2.finishReason with
    | none => simp
    | some r => by_cases hstop : r = "STOP" <;> simp [hstop]

theorem map_said_eq_none {candidates : List (Bool × Candidate α)} :
    (∀ r ∈ candidates.map said, r = none) ↔ ∀ c ∈ candidates, speaks c = false := by
  simp only [forall_mem_map, said_eq_none_iff]

private theorem finishReasonOpenAI_ne (r : String) : finishReasonOpenAI r ≠ "tool_calls" := by
  unfold finishReasonOpenAI
  split_ifs <;> decide

private theorem told_append (before after : List (List (Bool × Candidate α))) :
    told index reason (before ++ after) =
      told index reason before ++
        told index (before.foldl (fun r t => shared t r) reason) after := by
  induction before generalizing reason with
  | nil => rfl
  | cons t before ih => simp only [cons_append, told, ih, foldl_cons, append_assoc]

private theorem foldl_shared :
    ts.foldl (fun r t => shared t r) reason = if ts.any leads then "tool_calls" else reason := by
  induction ts generalizing reason with
  | nil => rfl
  | cons t ts ih =>
    rw [foldl_cons, ih, any_cons, shared]
    cases leads t <;> simp

theorem told_unstopped (h : index = 0 → ∀ t ∈ ts, stops t = false) :
    told index reason ts = (turnsAt index ts).map said := by
  induction ts generalizing reason with
  | nil => rfl
  | cons t ts ih =>
    have hnone : ¬ (index = 0 ∧ stops t = true) := by
      rintro ⟨hzero, hstops⟩
      rw [h hzero t mem_cons_self] at hstops
      cases hstops
    rw [told, if_neg hnone, nil_append,
      ih fun hzero t' ht => h hzero t' (mem_cons_of_mem t ht), turnsAt, turnsAt, flatMap_cons,
      map_append]

private theorem told_zero_eq_nil_iff :
    told 0 reason ts = [] ↔ ∀ t ∈ ts, turnAt 0 t = [] ∧ stops t = false := by
  induction ts generalizing reason with
  | nil => simp [told]
  | cons t ts ih =>
    rw [told, append_eq_nil_iff, append_eq_nil_iff, ih, map_eq_nil_iff, forall_mem_cons]
    cases stops t <;> simp

section

variable {candidates : List (Bool × Candidate α)} {expected : String}

private theorem endsWith_map_said_iff :
    EndsWith expected (candidates.map said) ↔
      ∃ init last, candidates = init ++ [last] ∧ (∀ c ∈ init, speaks c = false) ∧
        said last = some expected := by
  constructor
  · rintro ⟨n, heq⟩
    obtain ⟨init, rest, rfl, hinit, hlast⟩ := map_eq_append_iff.mp heq
    obtain ⟨last, rfl, hsaid⟩ := map_eq_singleton_iff.mp hlast
    refine ⟨init, last, rfl, map_said_eq_none.mp fun r hr => ?_, hsaid⟩
    rw [hinit] at hr
    exact eq_of_mem_replicate hr
  · rintro ⟨init, last, rfl, hinit, hsaid⟩
    rw [map_append, endsWith_append_iff]
    exact .inr ⟨map_said_eq_none.mpr hinit, 0, by rw [map_singleton, hsaid]; rfl⟩

/-- The reason that a choice has to be given. -/
def reasonDue (candidates : List (Bool × Candidate α)) (reason : String) : String :=
  if candidates.any fun c => hasCalls c.2 then "tool_calls" else finishReasonOpenAI reason

private theorem said_eq_due_iff {init : List (Bool × Candidate α)}
    (hreason : c.2.finishReason = some reason) :
    said c = some (reasonDue (init ++ [c]) reason) ↔
      speaks c = true ∧ (hasCalls c.2 = true ∨ ∀ d ∈ init, hasCalls d.2 = false) := by
  unfold said speaks reasonDue
  rw [any_append, any_cons, any_nil, Bool.or_false, hreason]
  cases hcalls : hasCalls c.2 with
  | true => cases c.1 <;> simp
  | false =>
    have hother := finishReasonOpenAI_ne reason
    have hany : (∀ d ∈ init, hasCalls d.2 = false) ↔
        (init.any fun d => hasCalls d.2) = false := by
      simp only [any_eq_false, Bool.not_eq_true]
    rw [hany]
    by_cases hstop : reason = "STOP"
    · simp [hstop]
    · cases init.any fun d => hasCalls d.2 <;> simp [hstop, hother]

private theorem endsItself_iff
    (hends : EndsWith reason (candidates.map fun c => c.2.finishReason)) :
    EndsWith (reasonDue candidates reason) (candidates.map said) ↔ EndsItself candidates := by
  obtain ⟨n, heq⟩ := hends
  have hlast : ∀ init last, candidates = init ++ [last] → last.2.finishReason = some reason := by
    rintro init last rfl
    rw [map_append, map_singleton] at heq
    simpa using (append_inj' heq rfl).2
  rw [endsWith_map_said_iff]
  unfold EndsItself
  refine exists₂_congr fun init last => and_congr_right fun hsplit => and_congr_right fun _ => ?_
  rw [hsplit, said_eq_due_iff (hlast init last hsplit)]

end

/-- A choice that is told nothing of its own has stopped, unless it had calls. -/
private theorem reasonDue_of_silent {candidates : List (Bool × Candidate α)}
    (hends : EndsWith reason (candidates.map fun c => c.2.finishReason))
    (hsilent : ∀ c ∈ candidates, speaks c = false) :
    reasonDue candidates reason =
      if candidates.any fun c => hasCalls c.2 then "tool_calls" else "stop" := by
  unfold reasonDue
  split
  · rfl
  · next hcalls =>
    obtain ⟨n, heq⟩ := hends
    have hmem : some reason ∈ candidates.map fun c => c.2.finishReason := by simp [heq]
    obtain ⟨c, hc, hreason⟩ := mem_map.mp hmem
    have hnone : hasCalls c.2 = false := by
      simp only [any_eq_true, not_exists, not_and, Bool.not_eq_true] at hcalls
      exact hcalls c hc
    have hstop : reason = "STOP" := by
      have hspeaks := hsilent c hc
      simpa [speaks, hnone, hreason] using hspeaks
    rw [hstop]
    rfl

theorem endsAtStop_iff (hends : EndsWith reason ((turnsAt 0 ts).map fun c => c.2.finishReason))
    (hstops : ∃ t ∈ ts, stops t = true) :
    EndsWith (reasonDue (turnsAt 0 ts) reason) (told 0 "stop" ts) ↔ EndsAtStop ts := by
  have hsplit : ∀ before t after, ts = before ++ t :: after → stops t = true →
      (∀ other ∈ before, stops other = false) →
      (EndsWith (reasonDue (turnsAt 0 ts) reason) (told 0 "stop" ts) ↔
        (∀ c ∈ turnsAt 0 (before ++ [t]), speaks c = false) ∧
          (∀ other ∈ after, turnAt 0 other = [] ∧ stops other = false) ∧
            ((turnsAt 0 ts).any fun c => hasCalls c.2) = (before ++ [t]).any leads) := by
    intro before t after heq hstop hbefore
    have htold : told 0 "stop" ts = (turnsAt 0 (before ++ [t])).map said ++
        some ((before ++ [t]).foldl (fun r t => shared t r) "stop") ::
          told 0 ((before ++ [t]).foldl (fun r t => shared t r) "stop") after := by
      rw [heq, told_append, told_unstopped fun _ => hbefore, told, if_pos ⟨rfl, hstop⟩,
        foldl_append, foldl_cons, foldl_nil]
      simp [turnsAt]
    rw [htold, endsWith_mid_iff, map_said_eq_none, told_zero_eq_nil_iff, foldl_shared]
    refine and_congr_right fun hsilent => ?_
    rw [and_comm]
    refine and_congr_right fun hafter => ?_
    have hsame : turnsAt 0 ts = turnsAt 0 (before ++ [t]) := by
      have hnone : turnsAt 0 after = [] :=
        flatMap_eq_nil_iff.mpr fun other hother => (hafter other hother).1
      rw [turnsAt] at hnone
      simp [heq, turnsAt, hnone]
    rw [reasonDue_of_silent hends (hsame ▸ hsilent)]
    cases (turnsAt 0 ts).any fun c => hasCalls c.2 <;>
      cases (before ++ [t]).any leads <;> simp
  constructor
  · intro h
    obtain ⟨t, hfound⟩ := Option.isSome_iff_exists.mp (find?_isSome.mpr hstops)
    obtain ⟨hstop, before, after, heq, hbefore⟩ := find?_eq_some_iff_append.mp hfound
    simp only [Bool.not_eq_true'] at hbefore
    obtain ⟨hsilent, hafter, hcalls⟩ := (hsplit before t after heq hstop hbefore).mp h
    exact ⟨before, t, after, heq, hstop, hsilent, hbefore, hafter, hcalls⟩
  · rintro ⟨before, t, after, heq, hstop, hsilent, hbefore, hafter, hcalls⟩
    exact (hsplit before t after heq hstop hbefore).mpr ⟨hsilent, hafter, hcalls⟩

private theorem finishesOnce_iff
    (hends : EndsWith reason ((turnsAt index ts).map fun c => c.2.finishReason)) :
    EndsWith (reasonDue (turnsAt index ts) reason) (told index "stop" ts) ↔
      FinishesOnce index ts := by
  unfold FinishesOnce
  by_cases hstops : index = 0 → ∀ t ∈ ts, stops t = false
  · rw [told_unstopped hstops, endsItself_iff hends]
    refine ⟨fun h => .inl ⟨h, hstops⟩, ?_⟩
    rintro (h | ⟨hzero, before, t, after, heq, hstop, -⟩)
    · exact h.1
    · rw [hstops hzero t (by simp [heq])] at hstop
      cases hstop
  · obtain ⟨rfl, hnot⟩ := Classical.not_imp.mp hstops
    have hsome : ∃ t ∈ ts, stops t = true := by simpa using hnot
    rw [endsAtStop_iff hends hsome]
    refine ⟨fun h => .inr ⟨rfl, h⟩, ?_⟩
    rintro (h | h)
    · exact absurd h.2 hstops
    · exact h.2

end

/-! ## What the handler writes -/

section

variable {α : Type u} (json : JsonCodec α) (id model : String) (index : Nat) {s : StreamState}

private theorem streamChoice_finishReason (candidate : Candidate α) :
    (streamChoice json candidate).finishReason = said (false, candidate) := by
  have htools : ∀ (parts : List (AnswerPart α)) (c : StreamCollected),
      (parts.foldl (StreamCollected.visit json) c).isTools =
        (c.isTools || hasCalls { candidate with parts := parts }) := by
    intro parts
    induction parts with
    | nil => simp [hasCalls]
    | cons part parts ih =>
      intro c
      rw [foldl_cons, ih, hasCalls, hasCalls, any_cons, ← Bool.or_assoc]
      congr 1
      cases part with
      | text | inlineData =>
        unfold StreamCollected.visit
        dsimp only
        split <;> simp [StreamCollected.write]
      | _ => simp [StreamCollected.visit, StreamCollected.write]
  unfold streamChoice said
  dsimp only
  rw [htools, Bool.false_or]
  rfl

theorem leads_turn (first : Bool) (candidates : List (Candidate α)) :
    leads (turn first candidates) = isToolCall (candidates.map (streamChoice json)) := by
  cases candidates with
  | nil => rfl
  | cons candidate =>
    rw [map_cons, isToolCall, streamChoice_toolCalls]
    change hasCalls candidate = _
    cases hhas : hasCalls candidate with
    | false =>
      rw [hasCalls_eq_false_iff.mp hhas]
      rfl
    | true =>
      have hsome : callsOf json [candidate] ≠ [] := by
        rw [Ne, ← hasCalls_eq_false_iff, hhas]
        exact Bool.noConfusion
      obtain ⟨call, calls, hcalls⟩ := exists_cons_of_ne_nil hsome
      rw [hcalls]
      rfl

def finishMark (choice : StreamChoice) : Nat × Option String :=
  (choice.index, choice.finishReason)

section

variable (choices : List StreamChoice)

theorem finishesAt_chunk :
    finishesAt index [{ id := id, model := model, choices := choices }] =
      ((choices.map finishMark).filter fun m => m.1 = index).map Prod.snd := by
  simp only [finishesAt, choicesAt, flatMap_singleton, filter_map, map_map]
  rfl

theorem indexChoices_marks :
    (s.indexChoices choices).1.map finishMark = choices.map finishMark := by
  induction choices generalizing s with
  | nil => rfl
  | cons choice choices ih => exact congrArg (finishMark choice :: ·) ih

private theorem isToolCall_indexChoices :
    isToolCall (s.indexChoices choices).1 = isToolCall choices := by
  cases choices with
  | nil => rfl
  | cons choice choices =>
    cases htools : choice.delta.toolCalls <;>
      simp [StreamState.indexChoices, isToolCall, htools, StreamState.setIndices]

private theorem indexChoices_finishReason :
    (s.indexChoices choices).2.finishReason = s.finishReason := by
  have hone : ∀ (key : Nat) (tools : List (Nat × ToolCall)) (s : StreamState),
      (s.setIndices key tools).2.finishReason = s.finishReason := by
    intro key tools
    induction tools with
    | nil => exact fun _ => rfl
    | cons tool tools ih =>
      intro s
      have htool : (s.setIndex key tool).2.finishReason = s.finishReason := by
        unfold StreamState.setIndex
        split
        · rfl
        · split <;> rfl
      exact (ih _).trans htool
  induction choices generalizing s with
  | nil => rfl
  | cons choice choices ih => exact ih.trans (hone _ _ _)

/-- The first choice of a first response with calls is not finished. -/
def sentMarks (first : Bool) : List (Nat × Option String) :=
  if first = true ∧ isToolCall choices = true then
    (unfinishFirst choices).map finishMark
  else choices.map finishMark

private theorem sentMarks_indexChoices (first : Bool) :
    sentMarks (s.indexChoices choices).1 first = sentMarks choices first := by
  unfold sentMarks
  rw [isToolCall_indexChoices, indexChoices_marks]
  cases choices with
  | nil => rfl
  | cons choice choices =>
    have hrest := indexChoices_marks (s := (s.setIndices choice.index
      choice.delta.toolCalls).2) choices
    simp only [StreamState.indexChoices, unfinishFirst, map_cons, hrest]
    rfl

private theorem sendChoices_finishes :
    finishesAt index (sendChoices id model choices s).1 =
      replicate (if s.sendResponseCount = 0 ∧ index = 0 then 1 else 0) none ++
        ((sentMarks choices (s.sendResponseCount = 0)).filter fun m => m.1 = index).map
          Prod.snd := by
  have hpair : ∀ first second, finishesAt index [first, second] =
      finishesAt index [first] ++ finishesAt index [second] := by
    intro first second
    simp [finishesAt, choicesAt]
  have hstart : ∀ toolCalls, finishesAt index
      [{ id := id, model := model, choices := generateStartEmptyResponse toolCalls }] =
      replicate (if index = 0 then 1 else 0) none := by
    intro toolCalls
    cases index <;> simp [finishesAt, choicesAt, generateStartEmptyResponse]
  have hclear : (unfinishFirst (clearToolCalls choices)).map finishMark =
      (unfinishFirst choices).map finishMark := by
    unfold clearToolCalls
    split
    · cases choices with
      | nil => rfl
      | cons choice choices =>
        simp [unfinishFirst, mapCalls, finishMark]
    · rfl
  unfold sendChoices sentMarks
  by_cases hcount : s.sendResponseCount = 0
  · cases hcalls : isToolCall choices <;>
      simp [hcount, andThen, handleStream, hpair, hstart, finishesAt_chunk, hclear]
  · simp [hcount, handleStream, finishesAt_chunk]

end

private theorem sentMarks_turn (first : Bool) (candidates : List (Candidate α)) :
    sentMarks (candidates.map (streamChoice json)) first =
      (turn first candidates).map fun c => (c.2.index, said c) := by
  have hmark : ∀ c : Candidate α, finishMark (streamChoice json c) = (c.index, said (false, c)) :=
    fun c => Prod.ext rfl (streamChoice_finishReason json c)
  have hmarks : ∀ candidates : List (Candidate α),
      (candidates.map (streamChoice json)).map finishMark =
        (candidates.map fun c => (false, c)).map fun c => (c.2.index, said c) := by
    intro candidates
    simp only [map_map]
    exact map_congr_left fun c _ => hmark c
  unfold sentMarks
  rw [← leads_turn json first]
  cases candidates with
  | nil => simp [turn, unfinishFirst]
  | cons candidate others =>
    rw [turn, leads]
    dsimp only
    split
    · next hcalls =>
      simp only [map_cons, unfinishFirst, hmarks]
      simp [said, hcalls, finishMark, streamChoice]
    · next hcalls =>
      rw [hmarks, map_cons, map_cons, map_cons]
      congr 2
      unfold said
      cases hhas : hasCalls candidate with
      | false => rfl
      | true =>
        obtain rfl : first = false := by simpa [hhas] using hcalls
        rfl

private theorem stops_turn (first : Bool) (candidates : List (Candidate α)) :
    stops (turn first candidates) = candidates.any fun c => c.finishReason = some "STOP" := by
  cases candidates with
  | nil => rfl
  | cons => simp [stops, turn, Function.comp_def]

theorem finishesAt_append (first second : List StreamResponse) :
    finishesAt index (first ++ second) = finishesAt index first ++ finishesAt index second := by
  simp [finishesAt, choicesAt]

private theorem sendChoices_state (choices : List StreamChoice) :
    (sendChoices id model choices s).2.finishReason = s.finishReason ∧
      (sendChoices id model choices s).2.sendResponseCount ≠ 0 := by
  unfold sendChoices
  split
  · split <;> exact ⟨rfl, Nat.succ_ne_zero _⟩
  · exact ⟨rfl, Nat.succ_ne_zero _⟩

private theorem sendStop_finishes (isStop : Bool) :
    finishesAt index (sendStop id model isStop s).1 =
        (if index = 0 ∧ isStop = true then [some s.finishReason] else []) ∧
      (sendStop id model isStop s).2.finishReason = s.finishReason ∧
      (s.sendResponseCount ≠ 0 → (sendStop id model isStop s).2.sendResponseCount ≠ 0) := by
  unfold sendStop
  cases isStop with
  | false => exact ⟨by simp [skip, finishesAt, choicesAt], rfl, fun h => h⟩
  | true =>
    refine ⟨?_, rfl, fun _ => Nat.succ_ne_zero _⟩
    cases index <;> simp [handleStream, finishesAt, choicesAt]

theorem finishesAt_onResponse (response : GeminiChatResponse α) {first : Bool}
    (hfirst : decide (s.sendResponseCount = 0) = first) :
    finishesAt index (onResponse json id model response s).1 =
      replicate (if s.sendResponseCount = 0 ∧ index = 0 then 1 else 0) none ++
        ((turnAt index (turn first response.candidates)).map said ++
          if index = 0 ∧ stops (turn first response.candidates) = true then
            [some (shared (turn first response.candidates) s.finishReason)]
          else []) ∧
      (onResponse json id model response s).2.finishReason =
        shared (turn first response.candidates) s.finishReason ∧
      (onResponse json id model response s).2.sendResponseCount ≠ 0 := by
  obtain ⟨next, hreason, hcount, heq⟩ : ∃ next : StreamState,
      next.finishReason = shared (turn first response.candidates) s.finishReason ∧
      next.sendResponseCount = s.sendResponseCount ∧
      onResponse json id model response s =
        ((sendChoices id model
          (next.indexChoices (response.candidates.map (streamChoice json))).1).andThen
            (sendStop id model (stops (turn first response.candidates))))
          (next.indexChoices (response.candidates.map (streamChoice json))).2 := by
    rw [stops_turn, shared, leads_turn json]
    refine ⟨if isToolCall (response.candidates.map (streamChoice json)) = true then
      { s with finishReason := "tool_calls" } else s, ?_, ?_, rfl⟩ <;> split <;> rfl
  have hindexed : (next.indexChoices (response.candidates.map (streamChoice json))).2.finishReason =
      shared (turn first response.candidates) s.finishReason :=
    (indexChoices_finishReason _).trans hreason
  have hsame : (next.indexChoices
      (response.candidates.map (streamChoice json))).2.sendResponseCount = s.sendResponseCount :=
    (indexChoices_sendResponseCount _).trans hcount
  obtain ⟨hsentReason, hsent⟩ := sendChoices_state id model
    (s := (next.indexChoices (response.candidates.map (streamChoice json))).2)
    (next.indexChoices (response.candidates.map (streamChoice json))).1
  rw [hindexed] at hsentReason
  obtain ⟨hstop, hstopReason, hstopCount⟩ := sendStop_finishes id model index
    (s := ((sendChoices id model
      (next.indexChoices (response.candidates.map (streamChoice json))).1)
      (next.indexChoices (response.candidates.map (streamChoice json))).2).2)
    (stops (turn first response.candidates))
  rw [heq]
  refine ⟨?_, hstopReason.trans hsentReason, hstopCount hsent⟩
  simp only [andThen]
  rw [finishesAt_append, hstop, hsentReason, sendChoices_finishes, hsame, hfirst,
    sentMarks_indexChoices, sentMarks_turn, append_assoc, filter_map, map_map]
  rfl

private theorem finishesAt_later {responses : List (GeminiChatResponse α)}
    (hcount : s.sendResponseCount ≠ 0) :
    finishesAt index (forEach (onResponse json id model) responses s).1 =
      told index s.finishReason (responses.map fun r => turn false r.candidates) := by
  induction responses generalizing s with
  | nil => rfl
  | cons response responses ih =>
    obtain ⟨hstep, hreason, hnext⟩ := finishesAt_onResponse json id model index response
      (decide_eq_false hcount)
    rw [if_neg fun hzero => hcount hzero.1, replicate_zero, nil_append] at hstep
    simp only [forEach, andThen]
    rw [finishesAt_append, hstep, ih hnext, hreason, map_cons, told, append_assoc]

/-- The empty chunk before the first response gives no reason. -/
private theorem finishesAt_stream (responses : List (GeminiChatResponse α)) :
    ∃ n, finishesAt index (forEach (onResponse json id model) responses {}).1 =
      replicate n none ++ told index "stop" (turns responses) := by
  cases responses with
  | nil => exact ⟨0, rfl⟩
  | cons response responses =>
    have hfirst : decide (({} : StreamState).sendResponseCount = 0) = true := rfl
    obtain ⟨hstep, hreason, hnext⟩ := finishesAt_onResponse json id model index response hfirst
    refine ⟨if index = 0 then 1 else 0, ?_⟩
    simp only [true_and] at hstep
    simp only [forEach, andThen]
    rw [finishesAt_append, hstep, finishesAt_later json id model index hnext, hreason, turns, told]
    simp only [append_assoc]

theorem snd_turnsAt (responses : List (GeminiChatResponse α)) :
    (turnsAt index (turns responses)).map Prod.snd = candidatesAt index responses := by
  have hturn : ∀ (first : Bool) (candidates : List (Candidate α)),
      (turnAt index (turn first candidates)).map Prod.snd =
        candidates.filter fun c => c.index = index := by
    intro first candidates
    cases candidates with
    | nil => rfl
    | cons candidate others =>
      have hothers : ((others.map fun other => (false, other)).filter
          fun c => c.2.index = index).map Prod.snd = others.filter fun c => c.index = index := by
        simp [filter_map, Function.comp_def]
      simp only [turnAt, turn, filter_cons]
      split <;> simp [hothers]
  cases responses with
  | nil => rfl
  | cons response responses =>
    simp only [turnsAt, turns, flatMap_cons, map_append, hturn, candidatesAt, map_flatMap,
      flatMap_map]

/-- A choice whose candidate gives one finish reason, in its last response, is
finished once, after all it is told, and with `tool_calls` exactly if there was
a call, if and only if `FinishesOnce`. -/
theorem gemini_stream_finishes_once_iff (includeUsage : Bool)
    (responses : List (GeminiChatResponse α)) (reason : String)
    (hends : EndsWith reason ((candidatesAt index responses).map Candidate.finishReason)) :
    EndsWith (if (candidatesAt index responses).any hasCalls then "tool_calls"
        else finishReasonOpenAI reason)
      (finishesAt index (geminiChatStreamHandler json id model includeUsage responses)) ↔
      FinishesOnce index (turns responses) := by
  have husage : finishesAt index (geminiChatStreamHandler json id model includeUsage responses) =
      finishesAt index (forEach (onResponse json id model) responses {}).1 := by
    unfold geminiChatStreamHandler
    cases includeUsage <;> simp [finishesAt, choicesAt]
  obtain ⟨n, hstream⟩ := finishesAt_stream json id model index responses
  rw [← snd_turnsAt, map_map] at hends
  rw [husage, hstream, endsWith_append_iff, ← snd_turnsAt, any_map, ← finishesOnce_iff hends]
  constructor
  · rintro (⟨⟨k, heq⟩, -⟩ | h)
    · have hlast : ∀ r ∈ replicate n (none : Option String), r = none :=
        fun r hr => eq_of_mem_replicate hr
      rw [heq] at hlast
      cases hlast _ (mem_append_right _ mem_cons_self)
    · exact h.2
  · exact fun h => .inr ⟨fun r hr => eq_of_mem_replicate hr, h⟩

end

def twoCandidates (reason : String) : List (GeminiChatResponse String) :=
  [{ candidates :=
      [{ index := 0, parts := [.text "Yes"], finishReason := some "STOP" },
        { index := 1, parts := [.text "No"], finishReason := some reason }] }]

/-- A first response with a call and a stop. -/
def calledAtOnce : List (GeminiChatResponse String) :=
  [{ candidates :=
      [{ index := 0, parts := [.functionCall "1" "map" "\x7b\x7d"],
         finishReason := some "STOP" }] }]

theorem gemini_stream_finishes_once_called :
    EndsWith "tool_calls"
        (finishesAt 0 (geminiChatStreamHandler rawMessage "" "" true calledAtOnce)) ∧
      EndsWith "length" (finishesAt 1
        (geminiChatStreamHandler rawMessage "" "" true (twoCandidates "MAX_TOKENS"))) := by
  constructor
  · refine (gemini_stream_finishes_once_iff rawMessage "" "" 0 true calledAtOnce "STOP"
      ⟨0, rfl⟩).mpr (.inr ⟨rfl, [], _, [], rfl, ?_⟩)
    decide
  · exact (gemini_stream_finishes_once_iff rawMessage "" "" 1 true (twoCandidates "MAX_TOKENS")
      "MAX_TOKENS" ⟨0, rfl⟩).mpr (.inl ⟨⟨[], _, rfl, by decide⟩, nofun⟩)

/-- The reason of a call is given with the call and once more at the stop, and
a second candidate that stops gets no reason. -/
theorem finish_given_twice_or_never :
    EndsWith "STOP" ((candidatesAt 0 paris).map Candidate.finishReason) ∧
      (finishesAt 0 (geminiChatStreamHandler rawMessage "" "" true paris)).reduceOption =
        ["tool_calls", "tool_calls"] ∧
      EndsWith "STOP" ((candidatesAt 1 (twoCandidates "STOP")).map Candidate.finishReason) ∧
      (finishesAt 1 (geminiChatStreamHandler rawMessage "" "" true
        (twoCandidates "STOP"))).reduceOption = [] :=
  ⟨⟨2, rfl⟩, by decide, ⟨0, rfl⟩, by decide⟩

end NewApi.RelayGemini
