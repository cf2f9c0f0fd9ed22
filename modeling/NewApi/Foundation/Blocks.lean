import Mathlib.Data.List.Nodup

/-!
# Messages made of blocks

A message is announced, consists of blocks that are started, extended and
stopped, possibly several at a time, and is summed up and ended.  `IsMessage`
says what a complete message is; `Reader` is the automaton that recognises it.
-/

namespace NewApi.Foundation

open List

inductive Frame where
  | messageStart
  | blockStart (index : Int)
  | blockDelta (index : Int)
  | blockStop (index : Int)
  | messageDelta
  | messageStop
  deriving DecidableEq

open Foundation.Frame

namespace Frame

def block : Frame → Option Int
  | .blockStart i | .blockDelta i | .blockStop i => some i
  | _ => none

def started : Frame → Option Int
  | .blockStart i => some i
  | _ => none

end Frame

section

variable (frames : List Frame)

def startsOf : List Int := frames.filterMap started

def framesOf (i : Int) (frames : List Frame) : List Frame := frames.filter fun f => f.block = some i

def OpenBlock (i : Int) (frames : List Frame) : Prop :=
  ∃ deltas, frames = .blockStart i :: List.replicate deltas (.blockDelta i)

def ClosedBlock (i : Int) (frames : List Frame) : Prop :=
  ∃ deltas, frames = .blockStart i :: List.replicate deltas (.blockDelta i) ++ [.blockStop i]

def indices (n : Nat) : List Int := (List.range n).map Int.ofNat

structure IsBody (body : List Frame) : Prop where
  blocks : ∀ f ∈ body, f.block ≠ none
  numbered : startsOf body = indices (startsOf body).length
  closed : ∀ i, framesOf i body = [] ∨ ClosedBlock i (framesOf i body)

def IsMessage : Prop :=
  ∃ body, frames = .messageStart :: body ++ [.messageDelta, .messageStop] ∧ IsBody body

inductive Reader where
  | fresh
  /-- Inside a message: the next index to be started and the open blocks. -/
  | reading (next : Nat) (opened : List Int)
  | summed
  | finished
  deriving DecidableEq

open Reader

def Reader.read : Reader → Frame → Option Reader
  | .fresh, .messageStart => some (.reading 0 [])
  | .reading next opened, .blockStart i =>
    if i = next then some (.reading (next + 1) (opened ++ [i])) else none
  | .reading next opened, .blockDelta i =>
    if i ∈ opened then some (.reading next opened) else none
  | .reading next opened, .blockStop i =>
    if i ∈ opened then some (.reading next (opened.erase i)) else none
  | .reading _ opened, .messageDelta => if opened = [] then some .summed else none
  | .summed, .messageStop => some .finished
  | _, _ => none

def readFrame (r : Option Reader) (f : Frame) : Option Reader := r.bind fun r => r.read f

@[simp] theorem readFrame_none (f : Frame) : readFrame none f = none := rfl

@[simp] theorem readFrame_some (r : Reader) (f : Frame) : readFrame (some r) f = r.read f := rfl

@[simp] theorem foldl_readFrame_none : frames.foldl readFrame none = none := by
  induction frames with
  | nil => rfl
  | cons f frames ih => exact ih

def Accepts : Prop := frames.foldl readFrame (some .fresh) = some .finished

end

instance (frames : List Frame) : Decidable (Accepts frames) := by
  unfold Accepts
  infer_instance

section

variable {i : Int} {f : Frame} {body : List Frame}

@[simp] theorem framesOf_append (i : Int) (first second : List Frame) :
    framesOf i (first ++ second) = framesOf i first ++ framesOf i second := filter_append ..

@[simp] theorem startsOf_append (first second : List Frame) :
    startsOf (first ++ second) = startsOf first ++ startsOf second := filterMap_append ..

theorem framesOf_singleton (i : Int) (f : Frame) :
    framesOf i [f] = if f.block = some i then [f] else [] := by
  by_cases h : f.block = some i <;> simp [framesOf, h]

theorem startsOf_cons (f : Frame) (frames : List Frame) :
    startsOf (f :: frames) = f.started.toList ++ startsOf frames := by
  cases f <;> rfl

theorem indices_succ (n : Nat) : indices (n + 1) = indices n ++ [(n : Int)] := by
  simp [indices, range_succ]

theorem OpenBlock.not_closed {frames : List Frame} (ho : OpenBlock i frames) :
    ¬ ClosedBlock i frames := by
  rintro ⟨deltas, hclosed⟩
  obtain ⟨deltas', rfl⟩ := ho
  have hmem : blockStop i ∈ blockStart i :: List.replicate deltas' (.blockDelta i) := by
    rw [hclosed]
    simp
  simp [mem_replicate] at hmem

theorem ClosedBlock.split {first rest : List Frame} (h : ClosedBlock i (first ++ f :: rest)) :
    (first = [] ∧ f = .blockStart i) ∨
      (OpenBlock i first ∧ (f = .blockDelta i ∨ f = .blockStop i)) := by
  obtain ⟨deltas, h⟩ := h
  cases first with
  | nil => exact .inl ⟨rfl, (List.cons.inj h).1⟩
  | cons g first =>
    obtain ⟨rfl, htail⟩ := List.cons.inj h
    refine .inr ?_
    clear h
    induction deltas generalizing first with
    | zero =>
      cases first with
      | nil => exact ⟨⟨0, rfl⟩, .inr (List.cons.inj htail).1⟩
      | cons => simp at htail
    | succ deltas ih =>
      cases first with
      | nil => exact ⟨⟨0, rfl⟩, .inl (List.cons.inj htail).1⟩
      | cons g first =>
        obtain ⟨rfl, hrest⟩ := List.cons.inj htail
        obtain ⟨⟨deltas', hopen⟩, hf⟩ := ih first hrest
        refine ⟨⟨deltas' + 1, ?_⟩, hf⟩
        rw [(List.cons.inj hopen).2]
        rfl

/-- What the automaton knows after the frames of a body that it has read. -/
structure Reader.Knows (body : List Frame) (next : Nat) (opened : List Int) : Prop where
  blocks : ∀ f ∈ body, f.block ≠ none
  starts : startsOf body = indices next
  nodup : opened.Nodup
  opens : ∀ i ∈ opened, OpenBlock i (framesOf i body)
  others : ∀ i, i ∉ opened → framesOf i body = [] ∨ ClosedBlock i (framesOf i body)

namespace Reader.Knows

variable {next : Nat} {opened : List Int}

theorem start : Knows [] 0 [] where
  blocks _ h := nomatch h
  starts := rfl
  nodup := nodup_nil
  opens _ h := nomatch h
  others _ _ := .inl rfl

inductive Reads (next : Nat) (opened : List Int) : Frame → Nat → List Int → Prop
  | blockStart : Reads next opened (.blockStart next) (next + 1) (opened ++ [(next : Int)])
  | blockDelta {i : Int} (h : i ∈ opened) : Reads next opened (.blockDelta i) next opened
  | blockStop {i : Int} (h : i ∈ opened) : Reads next opened (.blockStop i) next (opened.erase i)

variable {next' : Nat} {opened' : List Int}

theorem Reads.read (h : Reads next opened f next' opened') :
    (reading next opened).read f = some (.reading next' opened') := by
  cases h with
  | blockStart => simp [read]
  | blockDelta h | blockStop h => simp [read, h]

theorem reads_of_read {r : Reader} (h : (reading next opened).read f = some r) :
    (∃ next' opened', r = .reading next' opened' ∧ Reads next opened f next' opened') ∨
      (f = .messageDelta ∧ opened = [] ∧ r = .summed) := by
  cases f with
  | blockStart =>
    obtain ⟨rfl, h⟩ := Option.ite_none_right_eq_some.mp h
    exact .inl ⟨_, _, (Option.some.inj h).symm, .blockStart⟩
  | blockDelta =>
    obtain ⟨hi, h⟩ := Option.ite_none_right_eq_some.mp h
    exact .inl ⟨_, _, (Option.some.inj h).symm, .blockDelta hi⟩
  | blockStop =>
    obtain ⟨hi, h⟩ := Option.ite_none_right_eq_some.mp h
    exact .inl ⟨_, _, (Option.some.inj h).symm, .blockStop hi⟩
  | messageDelta =>
    obtain ⟨hnil, h⟩ := Option.ite_none_right_eq_some.mp h
    exact .inr ⟨rfl, hnil, (Option.some.inj h).symm⟩
  | messageStart | messageStop => contradiction

theorem framesOf_next (h : Knows body next opened) : framesOf next body = [] := by
  have hfresh : (next : Int) ∉ startsOf body := by
    rw [h.starts]
    simp only [indices, mem_map, mem_range, not_exists, not_and]
    intro x hx hxn
    exact Nat.ne_of_lt hx (Int.ofNat.inj hxn)
  have hstart : blockStart next ∉ framesOf next body := by
    intro hmem
    exact hfresh (mem_filterMap.mpr ⟨_, mem_of_mem_filter hmem, rfl⟩)
  by_cases hopen : (next : Int) ∈ opened
  · obtain ⟨deltas, hd⟩ := h.opens _ hopen
    exact absurd (hd ▸ mem_cons_self) hstart
  · rcases h.others _ hopen with hnil | ⟨deltas, hd⟩
    · exact hnil
    · exact absurd (hd ▸ by simp) hstart

section

variable (h : Knows body next opened)
include h

theorem snoc_block (hf : f.block = some i) (hstarts : startsOf (body ++ [f]) = indices next')
    (hnodup : opened'.Nodup) (hrest : ∀ j, i ≠ j → (j ∈ opened' ↔ j ∈ opened))
    (hopen : i ∈ opened' → OpenBlock i (framesOf i body ++ [f]))
    (hclosed : i ∉ opened' → ClosedBlock i (framesOf i body ++ [f])) :
    Knows (body ++ [f]) next' opened' := by
  have hself : framesOf i (body ++ [f]) = framesOf i body ++ [f] := by
    simp [framesOf_singleton, hf]
  have hother : ∀ j, i ≠ j → framesOf j (body ++ [f]) = framesOf j body := by
    intro j hne
    simp [framesOf_singleton, hf, hne]
  refine ⟨?_, hstarts, hnodup, fun j hj => ?_, fun j hj => ?_⟩
  · intro g hg
    rcases mem_append.mp hg with hg | hg
    · exact h.blocks g hg
    · rw [mem_singleton.mp hg, hf]
      exact nofun
  · rcases eq_or_ne i j with rfl | hne
    · rw [hself]
      exact hopen hj
    · rw [hother j hne]
      exact h.opens j ((hrest j hne).mp hj)
  · rcases eq_or_ne i j with rfl | hne
    · rw [hself]
      exact .inr (hclosed hj)
    · rw [hother j hne]
      exact h.others j fun hmem => hj ((hrest j hne).mpr hmem)

theorem snoc (hf : Reads next opened f next' opened') : Knows (body ++ [f]) next' opened' := by
  cases hf with
  | blockStart =>
    have hfresh : (next : Int) ∉ opened := by
      intro hmem
      obtain ⟨deltas, hd⟩ := h.opens _ hmem
      simp [h.framesOf_next] at hd
    refine h.snoc_block rfl ?_ (nodup_append_comm.mp (nodup_cons.mpr ⟨hfresh, h.nodup⟩)) ?_ ?_ ?_
    · rw [startsOf_append, h.starts, indices_succ]
      rfl
    · intro j hne
      simp [hne.symm]
    · exact fun _ => ⟨0, by simp [h.framesOf_next]⟩
    · exact fun hnot => absurd (mem_append_right _ mem_cons_self) hnot
  | @blockDelta i hi =>
    refine h.snoc_block rfl ?_ h.nodup (fun _ _ => .rfl) ?_ fun hnot => absurd hi hnot
    · rw [startsOf_append, h.starts]
      exact append_nil _
    · intro _
      obtain ⟨deltas, hd⟩ := h.opens _ hi
      exact ⟨deltas + 1, by simp [hd, replicate_succ']⟩
  | @blockStop i hi =>
    refine h.snoc_block rfl ?_ (h.nodup.erase i) (fun j hne => mem_erase_of_ne hne.symm) ?_ ?_
    · rw [startsOf_append, h.starts]
      exact append_nil _
    · exact fun hmem => absurd hmem h.nodup.not_mem_erase
    · intro _
      obtain ⟨deltas, hd⟩ := h.opens _ hi
      exact ⟨deltas, by simp [hd]⟩

theorem reads_next {rest : List Frame} (hbody : IsBody (body ++ f :: rest)) :
    ∃ next' opened', Reads next opened f next' opened' := by
  have hsplit : ∀ i, f.block = some i →
      framesOf i (body ++ f :: rest) = framesOf i body ++ f :: framesOf i rest := by
    intro i hi
    simp [framesOf, hi]
  have hopen : ∀ i, f.block = some i → f ≠ .blockStart i → i ∈ opened := by
    intro i hi hne
    rcases hbody.closed i with hnil | hclosed
    · simp [hsplit i hi] at hnil
    rw [hsplit i hi] at hclosed
    rcases hclosed.split with ⟨-, hf⟩ | ⟨hbefore, -⟩
    · exact absurd hf hne
    by_contra hmem
    rcases h.others i hmem with hnil | hdone
    · obtain ⟨deltas, hd⟩ := hbefore
      simp [hnil] at hd
    · exact hbefore.not_closed hdone
  cases f with
  | blockStart i =>
    have hnumbered := hbody.numbered
    have hstarts : startsOf (body ++ .blockStart i :: rest) =
        indices next ++ i :: startsOf rest := by
      rw [startsOf_append, h.starts, startsOf_cons]
      rfl
    rw [hstarts] at hnumbered
    have hi := congrArg (fun l => l[next]?) hnumbered
    simp [indices] at hi
    subst hi
    exact ⟨_, _, .blockStart⟩
  | blockDelta i => exact ⟨_, _, .blockDelta (hopen i rfl nofun)⟩
  | blockStop i => exact ⟨_, _, .blockStop (hopen i rfl nofun)⟩
  | messageStart => exact absurd rfl (hbody.blocks .messageStart (by simp))
  | messageDelta => exact absurd rfl (hbody.blocks .messageDelta (by simp))
  | messageStop => exact absurd rfl (hbody.blocks .messageStop (by simp))

end

theorem isBody (h : Knows body next []) : IsBody body where
  blocks := h.blocks
  numbered := by simp [h.starts, indices]
  closed i := h.others i not_mem_nil

section

variable (h : Knows body next opened)
include h

theorem opened_eq_nil (hbody : IsBody body) : opened = [] := by
  rw [eq_nil_iff_forall_not_mem]
  intro i hi
  have hopen := h.opens i hi
  rcases hbody.closed i with hnil | hclosed
  · obtain ⟨deltas, hd⟩ := hopen
    simp [hnil] at hd
  · exact hopen.not_closed hclosed

theorem foldl_of_isBody {rest : List Frame} (hbody : IsBody (body ++ rest)) :
    ∃ next', rest.foldl readFrame (some (.reading next opened)) = some (.reading next' []) := by
  induction rest generalizing body next opened with
  | nil =>
    rw [append_nil] at hbody
    exact ⟨next, by rw [foldl_nil, h.opened_eq_nil hbody]⟩
  | cons f rest ih =>
    obtain ⟨next', opened', hf⟩ := h.reads_next hbody
    rw [foldl_cons, readFrame_some, hf.read]
    exact ih (h.snoc hf) (by simpa using hbody)

theorem isBody_of_foldl {rest : List Frame}
    (hread : rest.foldl readFrame (some (.reading next opened)) = some .finished) :
    ∃ tail, rest = tail ++ [.messageDelta, .messageStop] ∧ IsBody (body ++ tail) := by
  induction rest generalizing body next opened with
  | nil => simp at hread
  | cons f rest ih =>
    rw [foldl_cons, readFrame_some] at hread
    cases hr : (reading next opened).read f with
    | none => simp [hr] at hread
    | some =>
      rw [hr] at hread
      rcases reads_of_read hr with ⟨next', opened', rfl, hf⟩ | ⟨rfl, rfl, rfl⟩
      · obtain ⟨tail, rfl, hbody⟩ := ih (h.snoc hf) hread
        exact ⟨f :: tail, rfl, by simpa using hbody⟩
      refine ⟨[], ?_, by simpa using h.isBody⟩
      cases rest with
      | nil => simp at hread
      | cons g rest =>
        cases g with
        | messageStop =>
          cases rest with
          | nil => rfl
          | cons => simp [read] at hread
        | _ => simp [read] at hread

end

end Reader.Knows

end

/-- The automaton accepts exactly the complete messages. -/
theorem accepts_iff_isMessage (frames : List Frame) : Accepts frames ↔ IsMessage frames := by
  constructor
  · intro h
    cases frames with
    | nil => contradiction
    | cons f =>
      cases f with
      | messageStart =>
        obtain ⟨tail, rfl, hbody⟩ := Reader.Knows.start.isBody_of_foldl h
        exact ⟨tail, rfl, hbody⟩
      | _ => simp [Accepts, Reader.read] at h
  · rintro ⟨body, rfl, hbody⟩
    obtain ⟨next, hread⟩ := Reader.Knows.start.foldl_of_isBody hbody
    unfold Accepts
    rw [cons_append, foldl_cons, foldl_append, readFrame_some]
    simp only [Reader.read, hread]
    rfl

end NewApi.Foundation
