import NewApi.Claude.Stream

/-!
# The grammar of the Claude events

For which well-formed chunk streams the events of the converter are a complete
message of Anthropic's streaming format.
-/

namespace NewApi.Claude

open Foundation List Dto Emitter ClaudeEvent ConvertInfo ChoiceDelta Chunk

def ClaudeEvent.frame : ClaudeEvent → Frame
  | .messageStart .. => .messageStart
  | .contentBlockStart index _ => .blockStart index
  | .contentBlockDelta index _ => .blockDelta index
  | .contentBlockStop index => .blockStop index
  | .messageDelta .. => .messageDelta
  | .messageStop => .messageStop

/-! ## Well-formed streams -/

/-- A named fragment begins the next tool call; any other continues one of those
that have begun. -/
def numberFragment (seen offset : Int) (named : Bool) : Option Int :=
  if named = true then if offset = seen then some (seen + 1) else none
  else if 0 ≤ offset ∧ offset < seen then some seen else none

def numberFragments : Int → Int → List ToolCallResponse → Option Int
  | seen, _, [] => some seen
  | seen, position, toolCall :: toolCalls =>
    (numberFragment seen (toolCall.offset position) (toolCall.name ≠ "")).bind fun seen =>
      numberFragments seen (position + 1) toolCalls

/-- The tool calls of a delta move the count from `seen` to `seen'`. -/
abbrev Numbers (d : ChoiceDelta) (seen seen' : Int) : Prop :=
  numberFragments seen 0 d.toolCalls = some seen'

def numberChunks : Int → List Chunk → Option Int
  | seen, [] => some seen
  | seen, chunk :: chunks =>
    (numberFragments seen 0 chunk.delta.toolCalls).bind fun seen => numberChunks seen chunks

/-- Chunks with deltas, one with a finish reason, and possibly one with the
usage only. -/
structure ChunkStream where
  body : List Chunk
  finish : Chunk
  usageOnly : Option Chunk

namespace ChunkStream

def chunks (s : ChunkStream) : List Chunk := s.body ++ s.finish :: s.usageOnly.toList

structure WellFormed (s : ChunkStream) : Prop where
  body : ∀ c ∈ s.body, c.choices ≠ [] ∧ c.reason = ""
  finish : s.finish.choices ≠ [] ∧ s.finish.reason ≠ ""
  usageOnly : ∀ c ∈ s.usageOnly, c.choices = [] ∧ c.usage.isSome = true
  numbered : (numberChunks 0 s.chunks).isSome = true

end ChunkStream

/-! ## The condition -/

/-- Where a stream stands with respect to its tool calls: none so far, inside a
group of which so many were started, or behind such a group. -/
inductive ToolGroup where
  | before
  | during (started : Int)
  | after

open ToolGroup

def ChoiceDelta.hasText (d : ChoiceDelta) : Bool :=
  d.getReasoningContent ≠ "" ∨ d.getContentString ≠ ""

/-- The blocks of a group are numbered from its first block, and the fragments
by the tool calls of the whole stream: they agree in the first group only, and
only for tool calls that the group has started. -/
def ToolGroup.chunk (g : ToolGroup) (d : ChoiceDelta) : Option ToolGroup :=
  if d.toolCalls ≠ [] then
    match g with
    | .before => (numberFragments 0 0 d.toolCalls).map .during
    | .during started => (numberFragments started 0 d.toolCalls).map .during
    | .after => none
  else if d.hasText = true then
    match g with
    | .during _ => some .after
    | g => some g
  else some g

def ToolGroup.first (d : ChoiceDelta) : ToolGroup :=
  if d.toolCalls = [] then .before
  else if d.hasText = true then .after
  else .during 1

def ToolGroup.chunks : Option ToolGroup → List Chunk → Option ToolGroup
  | g, [] => g
  | g, chunk :: chunks => ToolGroup.chunks (g.bind fun g => g.chunk chunk.delta) chunks

namespace ChunkStream

def converted (s : ChunkStream) (rest : List Chunk) : List Chunk :=
  if s.finish.usage.isSome = true then rest ++ [s.finish] else rest

def Convertible (s : ChunkStream) : Prop :=
  match s.body with
  | [] => s.finish.usage.isSome = true ∧ s.usageOnly.isSome = true
  | first :: rest =>
    3 ≤ s.chunks.length ∧ (s.finish.usage.isSome = true ∨ s.usageOnly.isSome = true) ∧
      (ToolGroup.chunks (some (.first first.delta)) (s.converted rest)).isSome = true

instance (s : ChunkStream) : Decidable s.Convertible := by
  unfold Convertible
  split <;> infer_instance

end ChunkStream

/-! ## The converter and the reader -/

def readEvent (r : Option Reader) (e : ClaudeEvent) : Option Reader := readFrame r e.frame

abbrev Reads (P : Option Reader → ConvertInfo → Prop) := Triple readEvent P

def blockRange (base count : Nat) : List Int :=
  (List.range count).map fun offset : Nat => (base : Int) + (offset : Int)

/-- The events so far are a message that can be continued, and the converter
knows its open blocks.  `seen` is the number of tool calls so far. -/
inductive Healthy (seen : Int) : ToolGroup → Option Reader → ConvertInfo → Prop
  | empty {info : ConvertInfo} (hlast : info.lastMessagesType = .none) (hindex : info.index = 0)
      (hseen : seen = 0) : Healthy seen .before (some (.reading 0 [])) info
  | content {info : ConvertInfo} {g : ToolGroup} {n : Nat}
      (hlast : info.lastMessagesType = .text ∨ info.lastMessagesType = .thinking)
      (hindex : info.index = n) (hgroup : (g = .before ∧ seen = 0) ∨ (g = .after ∧ 0 < seen)) :
      Healthy seen g (some (.reading (n + 1) [(n : Int)])) info
  | tools {info : ConvertInfo} {base count : Nat} (hlast : info.lastMessagesType = .tools)
      (hbase : info.toolCallBaseIndex = base) (hmax : info.toolCallMaxIndexOffset = count)
      (hindex : info.index = base + count) (hseen : (count : Int) < seen) :
      Healthy seen (.during (count + 1))
        (some (.reading (base + count + 1) (blockRange base (count + 1)))) info

/-- The events so far cannot become a message: they were rejected, or the
converter will stop a block that is not open and will not be started. -/
def Doomed (seen : Int) (r : Option Reader) (info : ConvertInfo) : Prop :=
  r = none ∨ ∃ next opened offset, r = some (.reading next opened) ∧
    info.lastMessagesType = .tools ∧ 0 ≤ offset ∧ offset ≤ info.toolCallMaxIndexOffset ∧
    offset < seen ∧ info.toolCallBaseIndex + offset ∉ opened

def Status (seen : Int) : Option ToolGroup → Option Reader → ConvertInfo → Prop
  | some g => Healthy seen g
  | none => Doomed seen

/-! ### Stops -/

theorem foldl_readEvent_none (events : List ClaudeEvent) : events.foldl readEvent none = none := by
  induction events with
  | nil => rfl
  | cons e events ih => exact ih

theorem rejected (f : Convert) : Reads (fun r _ => r = none) f (fun r _ => r = none) := by
  rintro r info rfl
  exact foldl_readEvent_none _

theorem foldl_stops_self (next : Nat) (opened : List Int) :
    (opened.map contentBlockStop).foldl readEvent (some (.reading next opened)) =
      some (.reading next []) := by
  induction opened with
  | nil => rfl
  | cons i opened ih =>
    have hread : readEvent (some (.reading next (i :: opened))) (.contentBlockStop i) =
        some (.reading next opened) := by
      simp [readEvent, frame, Reader.read]
    rw [map_cons, foldl_cons, hread, ih]

theorem foldl_stops_unopened {next : Nat} {opened stops : List Int} {i : Int} (hi : i ∈ stops)
    (hunopened : i ∉ opened) :
    (stops.map contentBlockStop).foldl readEvent (some (.reading next opened)) =
      none := by
  induction stops generalizing opened with
  | nil => contradiction
  | cons j stops ih =>
    rw [map_cons, foldl_cons]
    by_cases hj : j ∈ opened
    · have hread : readEvent (some (.reading next opened)) (.contentBlockStop j) =
          some (.reading next (opened.erase j)) := by
        simp [readEvent, frame, Reader.read, hj]
      have hne : i ≠ j := by
        rintro rfl
        exact hunopened hj
      rw [hread]
      apply ih
      · exact (mem_cons.mp hi).resolve_left hne
      · exact fun hmem => hunopened (mem_of_mem_erase hmem)
    · have hread : readEvent (some (.reading next opened)) (.contentBlockStop j) = none := by
        simp [readEvent, frame, Reader.read, hj]
      rw [hread]
      exact foldl_readEvent_none _

def Between (r : Option Reader) (info : ConvertInfo) : Prop :=
  info.lastMessagesType = .none ∧ ∃ n : Nat, r = some (.reading n []) ∧ info.index = n

section

variable {seen : Int} {r : Option Reader} {info : ConvertInfo}

theorem stopOpenBlocks_content {n : Nat}
    (hlast : info.lastMessagesType = .text ∨ info.lastMessagesType = .thinking)
    (hindex : info.index = n) : stopOpenBlocks info = [(n : Int)].map .contentBlockStop := by
  rcases hlast with hlast | hlast <;> simp [stopOpenBlocks, hlast, hindex]

theorem stopOpenBlocks_tools {base count : Nat} (hlast : info.lastMessagesType = .tools)
    (hbase : info.toolCallBaseIndex = base) (hmax : info.toolCallMaxIndexOffset = count) :
    stopOpenBlocks info = (blockRange base (count + 1)).map .contentBlockStop := by
  have hcount : ((count : Int) + 1).toNat = count + 1 := by omega
  simp [stopOpenBlocks, hlast, hbase, hmax, hcount, blockRange]

theorem stopOpenBlocks_healthy {g : ToolGroup} (h : Healthy seen g r info) :
    ∃ next, (stopOpenBlocks info).foldl readEvent r = some (.reading next []) := by
  cases h with
  | empty hlast => exact ⟨0, by simp [stopOpenBlocks, hlast]⟩
  | content hlast hindex =>
    rw [stopOpenBlocks_content hlast hindex, foldl_stops_self]
    exact ⟨_, rfl⟩
  | tools hlast hbase hmax =>
    rw [stopOpenBlocks_tools hlast hbase hmax, foldl_stops_self]
    exact ⟨_, rfl⟩

theorem stopOpenBlocks_doomed (h : Doomed seen r info) :
    (stopOpenBlocks info).foldl readEvent r = none := by
  rcases h with rfl | ⟨next, opened, offset, rfl, hlast, hnonneg, hmax, -, hunopened⟩
  · exact foldl_readEvent_none _
  have hstop : stopOpenBlocks info =
      ((List.range (info.toolCallMaxIndexOffset + 1).toNat).map fun o : Nat =>
        info.toolCallBaseIndex + (o : Int)).map .contentBlockStop := by
    simp [stopOpenBlocks, hlast]
  rw [hstop]
  refine foldl_stops_unopened ?_ hunopened
  refine mem_map.mpr ⟨offset.toNat, mem_range.mpr (by omega), ?_⟩
  rw [Int.toNat_of_nonneg hnonneg]

end

theorem advance_healthy {seen : Int} {g : ToolGroup} :
    Reads (Healthy seen g) stopOpenBlocksAndAdvance Between := by
  intro r info h
  rw [stopOpenBlocksAndAdvance_events]
  cases h with
  | empty hlast hindex => simp [stopOpenBlocksAndAdvance, stopOpenBlocks, hlast, hindex, Between]
  | @content _ _ n hlast hindex =>
    rw [stopOpenBlocks_content hlast hindex, foldl_stops_self]
    rcases hlast with hlast | hlast <;>
      exact ⟨by simp [stopOpenBlocksAndAdvance, hlast], n + 1, rfl,
        by simp [stopOpenBlocksAndAdvance, hlast, hindex]⟩
  | @tools _ base count hlast hbase hmax =>
    rw [stopOpenBlocks_tools hlast hbase hmax, foldl_stops_self]
    exact ⟨by simp [stopOpenBlocksAndAdvance, hlast], base + count + 1, rfl,
      by simp [stopOpenBlocksAndAdvance, hlast, hbase, hmax]⟩

theorem advance_doomed {seen : Int} :
    Reads (Doomed seen) stopOpenBlocksAndAdvance (fun r _ => r = none) := by
  intro r info h
  rw [stopOpenBlocksAndAdvance_events]
  exact stopOpenBlocks_doomed h

/-! ### Text and thinking -/

def Writing (kind : LastMessageType) (r : Option Reader) (info : ConvertInfo) : Prop :=
  info.lastMessagesType = kind ∧ ∃ n : Nat, r = some (.reading (n + 1) [(n : Int)]) ∧ info.index = n

def ToolGroup.text : ToolGroup → ToolGroup
  | .during _ => .after
  | g => g

variable {r : Option Reader} {seen' : Int} {d : ChoiceDelta} {g : Option ToolGroup}

theorem Healthy.group_text {seen : Int} {g : ToolGroup} {info : ConvertInfo}
    (h : Healthy seen g r info) : (g.text = .before ∧ seen = 0) ∨ (g.text = .after ∧ 0 < seen) := by
  cases h with
  | empty hlast hindex hseen => exact .inl ⟨rfl, hseen⟩
  | content hlast hindex hgroup =>
    rcases hgroup with ⟨rfl, hseen⟩ | ⟨rfl, hseen⟩
    · exact .inl ⟨rfl, hseen⟩
    · exact .inr ⟨rfl, hseen⟩
  | tools => exact .inr ⟨rfl, by omega⟩

private theorem start_between (kind : LastMessageType) (block : ContentBlock) :
    Reads Between
      (fun info => ([.contentBlockStart info.index block], { info with lastMessagesType := kind }))
      (Writing kind) := by
  rintro r info ⟨-, n, rfl, hindex⟩
  refine ⟨rfl, n, ?_, hindex⟩
  simp [readEvent, frame, Reader.read, hindex]

variable {kind : LastMessageType} {offset position : Int} {toolCall : ToolCallResponse}
  {toolCalls : List ToolCallResponse}

section

variable {seen : Int} {info : ConvertInfo}

private theorem emitDelta_writing (delta : BlockDelta) :
    Reads (Writing kind) (emitDelta delta) (Writing kind) := by
  rintro r info ⟨hlast, n, rfl, hindex⟩
  refine ⟨hlast, n, ?_, hindex⟩
  simp [emitDelta, emit, readEvent, frame, Reader.read, hindex]

section

variable (hkind : kind = .text ∨ kind = .thinking) (block : ContentBlock)
include hkind

private theorem startBlock_healthy {g : ToolGroup} :
    Reads (Healthy seen g) (startBlock kind block) (Writing kind) := by
  intro r info h
  by_cases hsame : info.lastMessagesType = kind
  · simp only [startBlock, hsame, if_true, foldl_nil]
    cases h with
    | empty hlast | tools hlast => rcases hkind with rfl | rfl <;> simp [hlast] at hsame
    | content hlast hindex => exact ⟨hsame, _, rfl, hindex⟩
  · simp only [startBlock, hsame, if_false]
    exact advance_healthy.andThen (start_between kind block) r info h

theorem startBlock_doomed : Reads (Doomed seen) (startBlock kind block) (fun r _ => r = none) := by
  intro r info h
  by_cases hsame : info.lastMessagesType = kind
  · simp only [startBlock, hsame, if_true, foldl_nil]
    rcases h with hr | ⟨_, _, _, -, hlast, -⟩
    · exact hr
    · rcases hkind with rfl | rfl <;> simp [hlast] at hsame
  · simp only [startBlock, hsame, if_false]
    exact advance_doomed.andThen (rejected _) r info h

theorem block_healthy (delta : BlockDelta) (seen : Int) (g : ToolGroup) :
    Reads (Healthy seen g) ((startBlock kind block).andThen (emitDelta delta))
      (Healthy seen g.text) := by
  intro r info h
  obtain ⟨hlast, n, hread, hindex⟩ :=
    (startBlock_healthy hkind block).andThen (emitDelta_writing delta) r info h
  rw [hread]
  refine .content ?_ hindex h.group_text
  rw [hlast]
  exact hkind

end

/-! ### Tool calls -/

def Looping (seen : Int) (started : Int) (r : Option Reader) (info : ConvertInfo) : Prop :=
  info.lastMessagesType = .tools ∧ ∃ base count : Nat, started = count ∧ (count : Int) ≤ seen ∧
    info.toolCallBaseIndex = base ∧ info.toolCallMaxIndexOffset = max ((count : Int) - 1) 0 ∧
    r = some (.reading (base + count) (blockRange base count))

def LoopStatus (seen : Int) : Option Int → Option Reader → ConvertInfo → Prop
  | some started => Looping seen started
  | none => Doomed seen

theorem mem_blockRange {base count : Nat} {i : Int} :
    i ∈ blockRange base count ↔ (base : Int) ≤ i ∧ i < base + count := by
  simp only [blockRange, mem_map, mem_range]
  constructor
  · rintro ⟨o, ho, rfl⟩
    omega
  · rintro ⟨hlo, hhi⟩
    exact ⟨(i - base).toNat, by omega, by omega⟩

private theorem blockRange_succ (base count : Nat) :
    blockRange base (count + 1) = blockRange base count ++ [(base : Int) + (count : Int)] := by
  simp [blockRange, range_succ]

theorem numberFragment_cases {next : Int} {named : Bool}
    (h : numberFragment seen offset named = some next) :
    (named = true ∧ offset = seen ∧ next = seen + 1) ∨
      (named = false ∧ 0 ≤ offset ∧ offset < seen ∧ next = seen) := by
  unfold numberFragment at h
  split_ifs at h with hnamed hoffset hrange
  · exact .inl ⟨hnamed, hoffset, (Option.some.inj h).symm⟩
  · exact .inr ⟨by simpa using hnamed, hrange.1, hrange.2, (Option.some.inj h).symm⟩

theorem read_start (i : Int) (block : ContentBlock) (next : Nat) (opened : List Int) :
    readEvent (some (.reading next opened)) (.contentBlockStart i block) =
      if i = next then some (.reading (next + 1) (opened ++ [i])) else none := rfl

theorem read_delta (arguments : String) (i : Int) (delta : BlockDelta) (next : Nat)
    (opened : List Int) :
    (if arguments ≠ "" then [contentBlockDelta i delta] else []).foldl readEvent
        (some (.reading next opened)) =
      if arguments = "" ∨ i ∈ opened then some (.reading next opened) else none := by
  by_cases harguments : arguments = "" <;>
    simp [harguments, readEvent, frame, Reader.read]

theorem toolFragment_unnamed (hname : toolCall.name = "") (position : Int) (info : ConvertInfo)
    (next : Nat) (opened : List Int) :
    (toolFragment position toolCall info).1.foldl readEvent (some (.reading next opened)) =
      if toolCall.arguments = "" ∨ info.toolCallBaseIndex + toolCall.offset position ∈ opened then
        some (.reading next opened)
      else none := by
  simp only [toolFragment, hname, ne_eq, not_true_eq_false, if_false, nil_append]
  exact read_delta ..

theorem toolFragment_named (hname : toolCall.name ≠ "") (position : Int) (info : ConvertInfo)
    (next : Nat) (opened : List Int) :
    (toolFragment position toolCall info).1.foldl readEvent (some (.reading next opened)) =
      if info.toolCallBaseIndex + toolCall.offset position = next then
        some (.reading (next + 1) (opened ++ [info.toolCallBaseIndex + toolCall.offset position]))
      else none := by
  simp only [toolFragment, if_pos hname, cons_append, nil_append, foldl_cons, read_start]
  split
  next hnext => rw [read_delta, if_pos (.inr (by simp))]
  next => exact foldl_readEvent_none _

private theorem toolFragment_doomed
    (hnumber : numberFragment seen (toolCall.offset position) (toolCall.name ≠ "") = some seen') :
    Reads (Doomed seen) (toolFragment position toolCall) (Doomed seen') := by
  rintro r info (rfl | ⟨next, opened, o, rfl, hlast, hnonneg, hmax, hseen, hunopened⟩)
  · exact .inl (foldl_readEvent_none _)
  · have hmax' : o ≤ max info.toolCallMaxIndexOffset (toolCall.offset position) := by omega
    rcases numberFragment_cases hnumber with ⟨hnamed, hoffset, rfl⟩ | ⟨hunnamed, -, -, rfl⟩
    · rw [toolFragment_named (by simpa using hnamed)]
      split
      next =>
        -- the block that is started lies behind the one that is missing
        refine .inr ⟨_, _, o, rfl, hlast, hnonneg, hmax', by omega, ?_⟩
        simp only [mem_append, mem_singleton, not_or]
        refine ⟨hunopened, ?_⟩
        show info.toolCallBaseIndex + o ≠ _
        omega
      next => exact .inl rfl
    · rw [toolFragment_unnamed (by simpa using hunnamed)]
      split
      next => exact .inr ⟨_, _, o, rfl, hlast, hnonneg, hmax', hseen, hunopened⟩
      next => exact .inl rfl

private theorem toolFragment_looping {started : Int}
    (hnumber : numberFragment seen (toolCall.offset position) (toolCall.name ≠ "") = some seen') :
    Reads (Looping seen started) (toolFragment position toolCall)
      (LoopStatus seen'
        (numberFragment started (toolCall.offset position) (toolCall.name ≠ ""))) := by
  rintro r info ⟨hlast, base, count, rfl, hcount, hbase, hmax, rfl⟩
  rcases numberFragment_cases hnumber with
    ⟨hnamed, hoffset, rfl⟩ | ⟨hunnamed, hnonneg, hoffset, rfl⟩
  · rw [toolFragment_named (by simpa using hnamed), hnamed, numberFragment, if_pos rfl, hbase]
    by_cases hnext : toolCall.offset position = count
    · rw [if_pos hnext, if_pos (by omega)]
      refine ⟨hlast, base, count + 1, rfl, by omega, hbase, ?_, ?_⟩
      · show max info.toolCallMaxIndexOffset (toolCall.offset position) = _
        omega
      · rw [blockRange_succ, hnext, Nat.add_assoc]
    · rw [if_neg hnext, if_neg (by omega)]
      exact .inl rfl
  · rw [toolFragment_unnamed (by simpa using hunnamed), hunnamed, numberFragment,
      if_neg Bool.false_ne_true, hbase]
    by_cases hstarted : toolCall.offset position < count
    · rw [if_pos ⟨hnonneg, hstarted⟩, if_pos (.inr (mem_blockRange.mpr (by omega)))]
      refine ⟨hlast, base, count, rfl, hcount, hbase, ?_, rfl⟩
      show max info.toolCallMaxIndexOffset (toolCall.offset position) = _
      omega
    rw [if_neg (by omega)]
    split
    next =>
      refine .inr ⟨_, _, toolCall.offset position, rfl, hlast, hnonneg, Int.le_max_right _ _,
        hoffset, ?_⟩
      show info.toolCallBaseIndex + _ ∉ _
      rw [hbase, mem_blockRange]
      omega
    next => exact .inl rfl

theorem toolFragments_status {started : Option Int}
    (hnumber : numberFragments seen position toolCalls = some seen') :
    Reads (LoopStatus seen started) (toolFragments position toolCalls)
      (LoopStatus seen' (started.bind fun k => numberFragments k position toolCalls)) := by
  induction toolCalls generalizing seen position started with
  | nil =>
    cases hnumber
    cases started <;> exact Triple.skip fun _ _ h => h
  | cons toolCall toolCalls ih =>
    obtain ⟨seen₁, hfirst, hrest⟩ := Option.bind_eq_some_iff.mp hnumber
    cases started with
    | none => exact (toolFragment_doomed hfirst).andThen (@ih _ _ none hrest)
    | some => exact (toolFragment_looping hfirst).andThen (ih hrest)

/-! ### Chunks -/

def ToolGroup.started : ToolGroup → Int
  | .during started => started
  | _ => 0

private theorem openTools_between (hseen : 0 ≤ seen) :
    Reads Between
      (fun info => ([], { info with
        toolCallBaseIndex := info.index
        toolCallMaxIndexOffset := 0
        lastMessagesType := .tools }))
      (Looping seen 0) := by
  rintro r info ⟨-, n, rfl, hindex⟩
  exact ⟨rfl, n, 0, rfl, hseen, hindex, rfl, rfl⟩

private theorem enterTools_healthy {g : ToolGroup} :
    Reads (Healthy seen g) enterTools (Looping seen g.started) := by
  intro r info h
  by_cases hlast : info.lastMessagesType = .tools
  · simp only [enterTools, hlast, if_true, foldl_nil]
    cases h with
    | empty hnone => simp [hnone] at hlast
    | content hcontent => rcases hcontent with hcontent | hcontent <;> simp [hcontent] at hlast
    | @tools _ base count _ hbase =>
      exact ⟨hlast, base, count + 1, by simp [started], by omega, hbase, by omega,
        by rw [Nat.add_assoc]⟩
  · simp only [enterTools, hlast, if_false]
    have hgroup : g.started = 0 ∧ 0 ≤ seen := by
      cases h with
      | empty _ _ hseen => exact ⟨rfl, hseen.ge⟩
      | content _ _ hgroup =>
        rcases hgroup with ⟨rfl, hseen⟩ | ⟨rfl, hseen⟩
        · exact ⟨rfl, hseen.ge⟩
        · exact ⟨rfl, hseen.le⟩
      | tools htools => exact absurd htools hlast
    rw [hgroup.1]
    exact advance_healthy.andThen (openTools_between hgroup.2) r info h

private theorem enterTools_doomed : Reads (Doomed seen) enterTools (Doomed seen) := by
  intro r info h
  by_cases hlast : info.lastMessagesType = .tools
  · simp only [enterTools, hlast, if_true, foldl_nil]
    exact h
  · simp only [enterTools, hlast, if_false]
    exact .inl (advance_doomed.andThen (rejected _) r info h)

private theorem numberFragments_le (h : numberFragments seen position toolCalls = some seen') :
    seen ≤ seen' := by
  induction toolCalls generalizing seen position with
  | nil => exact (Option.some.inj h).le
  | cons toolCall toolCalls ih =>
    obtain ⟨seen₁, hfirst, hrest⟩ := Option.bind_eq_some_iff.mp h
    have := ih hrest
    rcases numberFragment_cases hfirst with ⟨-, -, rfl⟩ | ⟨-, -, -, rfl⟩ <;> omega

theorem numberFragments_pos (hne : toolCalls ≠ []) (hseen : 0 ≤ seen)
    (h : numberFragments seen position toolCalls = some seen') : 0 < seen' := by
  cases toolCalls with
  | nil => contradiction
  | cons =>
    obtain ⟨seen₁, hfirst, hrest⟩ := Option.bind_eq_some_iff.mp h
    have := numberFragments_le hrest
    rcases numberFragment_cases hfirst with ⟨-, -, rfl⟩ | ⟨-, _, _, rfl⟩ <;> omega

private theorem numberFragments_zero (hne : toolCalls ≠ []) (hseen : 0 < seen)
    (h : numberFragments seen position toolCalls = some seen') :
    numberFragments 0 position toolCalls = none := by
  cases toolCalls with
  | nil => contradiction
  | cons =>
    obtain ⟨seen₁, hfirst, -⟩ := Option.bind_eq_some_iff.mp h
    rw [numberFragments, Option.bind_eq_none_iff]
    intro k hk
    rcases numberFragment_cases hfirst with ⟨hnamed, _, -⟩ | ⟨hunnamed, _, _, -⟩
    · rcases numberFragment_cases hk with ⟨-, _, -⟩ | ⟨hunnamed, -⟩
      · omega
      · exact Bool.noConfusion (hnamed.symm.trans hunnamed)
    · rcases numberFragment_cases hk with ⟨hnamed, -⟩ | ⟨-, _, _, -⟩
      · exact Bool.noConfusion (hnamed.symm.trans hunnamed)
      · omega

theorem leaveTools_status {started : Option Int} (hpos : ∀ k ∈ started, 0 < k) :
    Reads (LoopStatus seen started) leaveTools (Status seen (started.map during)) := by
  intro r info h
  cases started with
  | none =>
    rcases h with rfl | ⟨next, opened, o, rfl, hlast, hrest⟩
    · exact .inl rfl
    · exact .inr ⟨next, opened, o, rfl, hlast, hrest⟩
  | some =>
    obtain ⟨hlast, base, count, rfl, hcount, hbase, hmax, rfl⟩ := h
    have hk := hpos count rfl
    obtain ⟨n, rfl⟩ : ∃ n, count = n + 1 := ⟨count - 1, by omega⟩
    have hmax' : info.toolCallMaxIndexOffset = n := by omega
    refine .tools hlast hbase hmax' ?_ (by omega)
    show info.toolCallBaseIndex + info.toolCallMaxIndexOffset = _
    rw [hbase, hmax']

theorem Healthy.chunk_tools {g : ToolGroup} (h : Healthy seen g r info) (hne : d.toolCalls ≠ [])
    (hnumber : Numbers d seen seen') :
    g.chunk d = (numberFragments g.started 0 d.toolCalls).map .during ∧
      ∀ k ∈ numberFragments g.started 0 d.toolCalls, 0 < k := by
  have hstarted : 0 ≤ g.started := by
    cases h with
    | empty => exact le_rfl
    | content _ _ hgroup => rcases hgroup with ⟨rfl, -⟩ | ⟨rfl, -⟩ <;> exact le_rfl
    | tools => simp only [started]; omega
  refine ⟨?_, fun k hk => numberFragments_pos hne hstarted hk⟩
  simp only [chunk, if_pos hne]
  cases g with
  | before | during => rfl
  | after =>
    have hseen : 0 < seen := by
      cases h with
      | content _ _ hgroup => simpa using hgroup
    simp [started, numberFragments_zero hne hseen hnumber, Option.map_none]

theorem ToolGroup.bind_chunk_text (g : Option ToolGroup) (hnil : d.toolCalls = [])
    (htext : d.hasText = true) : (g.bind fun g => g.chunk d) = g.map text := by
  cases g with
  | none => rfl
  | some g => cases g <;> simp [chunk, hnil, htext, text]

theorem ToolGroup.bind_chunk_empty (g : Option ToolGroup) (hnil : d.toolCalls = [])
    (htext : d.hasText = false) : (g.bind fun g => g.chunk d) = g := by
  cases g with
  | none => rfl
  | some => simp [chunk, hnil, htext]

private theorem toolCalls_status (hne : d.toolCalls ≠ []) (hnumber : Numbers d seen seen') :
    Reads (Status seen g)
      (enterTools.andThen ((toolFragments 0 d.toolCalls).andThen leaveTools))
      (Status seen' (g.bind fun g => g.chunk d)) := by
  cases g with
  | none =>
    have hloop := @toolFragments_status _ _ _ _ none hnumber
    exact enterTools_doomed.andThen (hloop.andThen (leaveTools_status nofun))
  | some g =>
    intro r info h
    obtain ⟨hchunk, hpos⟩ := Healthy.chunk_tools h hne hnumber
    have hloop := @toolFragments_status _ _ _ _ (some g.started) hnumber
    have hall := enterTools_healthy.andThen (hloop.andThen (leaveTools_status hpos))
    rw [Option.bind_some, hchunk]
    exact hall r info h

theorem block_status (hkind : kind = .text ∨ kind = .thinking) (block : ContentBlock)
    (delta : BlockDelta) :
    Reads (Status seen g) ((startBlock kind block).andThen (emitDelta delta))
      (Status seen (g.map text)) := by
  cases g with
  | none =>
    exact ((startBlock_doomed hkind block).andThen (rejected _)).weaken fun _ _ h => .inl h
  | some g => exact block_healthy hkind block delta seen g

theorem laterContent_status (hnumber : Numbers d seen seen') :
    Reads (Status seen g) (laterContent d) (Status seen' (g.bind fun g => g.chunk d)) := by
  by_cases hne : d.toolCalls = []
  · obtain rfl : seen = seen' := by
      rw [Numbers, hne] at hnumber
      exact Option.some.inj hnumber
    unfold laterContent
    rw [if_neg (not_not.mpr hne)]
    split_ifs with hreasoning hcontent
    · have htext : d.hasText = true := by simp [hasText, hreasoning]
      rw [bind_chunk_text g hne htext]
      exact block_status (.inr rfl) _ _
    · have htext : d.hasText = true := by simp [hasText, hcontent]
      rw [bind_chunk_text g hne htext]
      exact block_status (.inl rfl) _ _
    · have htext : d.hasText = false := by
        simp [hasText, not_not.mp hreasoning, not_not.mp hcontent]
      rw [bind_chunk_empty g hne htext]
      exact Triple.skip fun _ _ h => h
  · unfold laterContent
    rw [if_pos hne]
    exact toolCalls_status hne hnumber

/-! ### The end of a message -/

theorem finishMessage_status (usage : Usage) (stopReason : String) (seen : Int)
    (g : Option ToolGroup) :
    Reads (Status seen g) (finishMessage (some usage) stopReason)
      (fun r info => (r = some .finished ↔ g.isSome = true) ∧ info.done = true) := by
  intro r info h
  refine ⟨?_, rfl⟩
  simp only [finishMessage, foldl_append]
  cases g with
  | none => simp [stopOpenBlocks_doomed h, readEvent]
  | some =>
    obtain ⟨next, hstop⟩ := stopOpenBlocks_healthy h
    rw [hstop]
    exact iff_of_true rfl rfl

private theorem finishMessage_none {g : ToolGroup} (stopReason : String) :
    Reads (Healthy seen g) (finishMessage none stopReason)
      (fun r info => r = none ∧ info.done = true) := by
  intro r info h
  obtain ⟨next, hstop⟩ := stopOpenBlocks_healthy h
  refine ⟨?_, rfl⟩
  simp only [finishMessage, Option.map_none, Option.toList_none, append_nil, foldl_append, hstop]
  rfl

/-! ### The first chunk -/

private theorem sendMessageStart_fresh (chunk : Chunk) :
    Reads
      (fun r info => r = some .fresh ∧ info.lastMessagesType = .none ∧ info.index = 0)
      (sendMessageStart chunk)
      (fun r info => Healthy 0 .before r info ∧ info.lastMessagesType = .none) := by
  rintro r info ⟨rfl, hlast, hindex⟩
  exact ⟨.empty hlast hindex rfl, hlast⟩

def ToolGroup.firstTools (toolCalls : List ToolCallResponse) : ToolGroup :=
  if toolCalls = [] then .before else .during 1

private theorem firstToolCalls_healthy (hnumber : numberFragments 0 0 toolCalls = some seen) :
    Reads
      (fun r info => (Healthy 0 .before r info ∧ info.lastMessagesType = .none) ∧ info.index = 0)
      (firstToolCalls toolCalls)
      (fun r info => Healthy seen (.firstTools toolCalls) r info ∧
        (info.lastMessagesType = .none ∨ info.lastMessagesType = .tools)) := by
  rintro r info ⟨⟨h, hlast⟩, hindex⟩
  cases toolCalls with
  | nil =>
    cases hnumber
    exact ⟨h, .inl hlast⟩
  | cons toolCall toolCalls =>
    have hseen := numberFragments_pos (cons_ne_nil _ _) le_rfl hnumber
    refine ⟨?_, .inr rfl⟩
    have hread : (firstToolCalls (toolCall :: toolCalls) info).1.foldl readEvent r =
        some (.reading 1 (blockRange 0 1)) := by
      cases h with
      | empty =>
        simp only [firstToolCalls, foldl_cons, read_start, Nat.cast_zero, if_true, read_delta]
        exact if_pos (.inr (by simp))
      | content hcontent => rcases hcontent with hcontent | hcontent <;> simp [hcontent] at hlast
    rw [hread]
    exact @Healthy.tools seen _ 0 0 rfl rfl rfl hindex hseen

theorem firstBlock_eq (h : info.lastMessagesType ≠ kind) (block : ContentBlock)
    (delta : BlockDelta) :
    firstBlock kind block delta info =
      ((startBlock kind block).andThen (emitDelta delta)) info := by
  simp [firstBlock, startBlock, andThen, emitDelta, emit, h]

private theorem firstContent_healthy (d : ChoiceDelta) (seen : Int) :
    Reads
      (fun r info => Healthy seen (.firstTools d.toolCalls) r info ∧
        (info.lastMessagesType = .none ∨ info.lastMessagesType = .tools))
      (firstContent d) (fun r info => Healthy seen (.first d) r info) := by
  have hgroup : first d =
      if d.hasText = true then (firstTools d.toolCalls).text
      else .firstTools d.toolCalls := by
    simp only [first, firstTools]
    split_ifs <;> rfl
  rintro r info ⟨h, hlast⟩
  have hkind : ∀ kind, kind = .text ∨ kind = .thinking → info.lastMessagesType ≠ kind := by
    rintro kind (rfl | rfl) <;> rcases hlast with hlast | hlast <;> simp [hlast]
  unfold firstContent
  split_ifs with hreasoning hcontent
  · rw [hgroup, if_pos (by simp [hasText, hreasoning]), firstBlock_eq (hkind _ (.inr rfl))]
    exact block_healthy (.inr rfl) _ _ seen _ r info h
  · rw [hgroup, if_pos (by simp [hasText, hcontent]), firstBlock_eq (hkind _ (.inl rfl))]
    exact block_healthy (.inl rfl) _ _ seen _ r info h
  · rw [hgroup, if_neg (by simp [hasText, not_not.mp hreasoning, not_not.mp hcontent])]
    exact h

/-! ## The handlers -/

def ConvertInfo.blocks (info : ConvertInfo) : LastMessageType × Int × Int × Int :=
  (info.lastMessagesType, info.index, info.toolCallBaseIndex, info.toolCallMaxIndexOffset)

theorem Status.congr {info' : ConvertInfo} (h : Status seen g r info)
    (hblocks : info'.blocks = info.blocks) : Status seen g r info' := by
  simp only [blocks, Prod.mk.injEq] at hblocks
  obtain ⟨hl, hi, hb, hm⟩ := hblocks
  cases g with
  | none =>
    rcases h with rfl | ⟨next, opened, o, rfl, hlast, hnonneg, hmax, hseen, hunopened⟩
    · exact .inl rfl
    · exact .inr ⟨next, opened, o, rfl, hl.trans hlast, hnonneg, hm ▸ hmax, hseen, hb ▸ hunopened⟩
  | some =>
    cases h with
    | empty hlast hindex hseen => exact .empty (hl.trans hlast) (hi.trans hindex) hseen
    | content hlast hindex hgroup => exact .content (hl.symm ▸ hlast) (hi.trans hindex) hgroup
    | tools hlast hbase hmax hindex hseen =>
      exact .tools (hl.trans hlast) (hb.trans hbase) (hm.trans hmax) (hi.trans hindex) hseen

def Running (seen : Int) (g : Option ToolGroup) (count : Int) (r : Option Reader)
    (info : ConvertInfo) : Prop :=
  Status seen g r info ∧ info.done = false ∧ info.sendResponseCount = count

def Begins (estimate : Int) (r : Option Reader) (info : ConvertInfo) : Prop :=
  r = some .fresh ∧ info = .start estimate

def Over (complete : Prop) (r : Option Reader) (info : ConvertInfo) : Prop :=
  (r = some .finished ↔ complete) ∧ info.done = true

theorem Status.reading (h : Status seen g r info) :
    r = none ∨ ∃ next opened, r = some (.reading next opened) := by
  cases g with
  | none =>
    rcases h with rfl | ⟨next, opened, _, rfl, -⟩
    · exact .inl rfl
    · exact .inr ⟨next, opened, rfl⟩
  | some => cases h <;> exact .inr ⟨_, _, rfl⟩

end

theorem Chunk.exists_choice {c : Chunk} (h : c.choices ≠ []) :
    ∃ choice rest, c.choices = choice :: rest ∧ c.delta = choice.delta ∧
      c.reason = choice.reason := by
  obtain ⟨choice, rest, hc⟩ := exists_cons_of_ne_nil h
  exact ⟨choice, rest, hc, by simp [delta, hc], by simp [reason, hc]⟩

section

variable {c : Chunk} {seen seen' count : Int} {g : Option ToolGroup}

/-! ### A chunk after the first -/

theorem stream_finish {usage : Usage} (hcount : count ≠ 1) (hchoices : c.choices ≠ [])
    (hreason : c.reason ≠ "") (husage : c.usage = some usage)
    (hnumber : Numbers c.delta seen seen') :
    Reads (Running seen g count) (streamResponseOpenAI2Claude c)
      (Over ((g.bind fun g => g.chunk c.delta).isSome = true)) := by
  obtain ⟨choice, rest, hc, hdelta, hr⟩ := exists_choice hchoices
  rintro r info ⟨h, hdone, rfl⟩
  have hstream : streamResponseOpenAI2Claude c info =
      ((laterContent c.delta).andThen
        (finishMessage (some usage) (stopReasonOpenAI2Claude choice.reason)))
        { info with finishReason := choice.reason } := by
    rw [hr] at hreason
    simp [streamResponseOpenAI2Claude, hdone, hcount, hc, laterChunk, hreason, husage, hdelta]
  rw [hstream]
  exact (laterContent_status hnumber).andThen (finishMessage_status usage _ seen' _) r _
    (h.congr rfl)

theorem stream_defer {info : ConvertInfo} (hchoices : c.choices ≠ []) (hreason : c.reason ≠ "")
    (husage : c.usage = none) (hdone : info.done = false) (hcount : info.sendResponseCount ≠ 1) :
    streamResponseOpenAI2Claude c info = ([], { info with finishReason := c.reason }) := by
  obtain ⟨choice, rest, hc, hdelta, hr⟩ := exists_choice hchoices
  rw [hr] at hreason ⊢
  simp [streamResponseOpenAI2Claude, hdone, hcount, hc, laterChunk, hreason, husage]

private theorem stream_usageOnly (hcount : count ≠ 1) (hchoices : c.choices = [])
    (husage : c.usage.isSome = true) :
    Reads (Running seen g count) (streamResponseOpenAI2Claude c) (Over (g.isSome = true)) := by
  obtain ⟨usage, husage⟩ := Option.isSome_iff_exists.mp husage
  rintro r info ⟨h, hdone, rfl⟩
  have hstream : streamResponseOpenAI2Claude c info = usageOnlyChunk c info := by
    simp [streamResponseOpenAI2Claude, hdone, hcount, hchoices]
  simp only [hstream, usageOnlyChunk, husage]
  exact finishMessage_status usage _ seen g r info h

/-! ### Deliveries -/

variable {Q : Option Reader → ConvertInfo → Prop} (usage : Usage)

theorem next_of_stream
    (h : Reads (Running seen g (count + 1)) (streamResponseOpenAI2Claude c) Q) :
    Reads (Running seen g count) (deliver usage (.next c)) Q := by
  rintro r info ⟨hstatus, hdone, rfl⟩
  exact h r _ ⟨hstatus.congr rfl, hdone, rfl⟩

theorem last_of_stream {complete : Prop}
    (h : Reads (Running seen g count) (streamResponseOpenAI2Claude c) (Over complete)) :
    Reads (Running seen g count) (deliver usage (.last c)) (Over complete) := by
  rintro r info ⟨hstatus, hdone, hcount⟩
  have hstream := h r { info with usage := some usage } ⟨hstatus.congr rfl, hdone, hcount⟩
  exact ⟨hstream.1, rfl⟩

theorem last_over (complete : Prop) :
    Reads (Over complete) (deliver usage (.last c)) (Over complete) := by
  rintro r info ⟨hread, hdone⟩
  have hstream : streamResponseOpenAI2Claude c { info with usage := some usage } =
      ([], { info with usage := some usage }) := by
    simp [streamResponseOpenAI2Claude, hdone]
  refine ⟨?_, rfl⟩
  simp only [deliver, handleFinalResponse, hstream, foldl_nil]
  exact hread

private theorem next_body (hcount : 1 ≤ count) (hbody : c.choices ≠ [] ∧ c.reason = "")
    (hnumber : Numbers c.delta seen seen') :
    Reads (Running seen g count) (deliver usage (.next c))
      (Running seen' (g.bind fun g => g.chunk c.delta) (count + 1)) := by
  obtain ⟨choice, rest, hc, hdelta, hr⟩ := exists_choice hbody.1
  have hcount' : count + 1 ≠ 1 := by omega
  have hcontent := (laterContent_status (g := g) hnumber).frame (keeps_laterContent c.delta)
    fun control => control.1 = false ∧ control.2.1 = count + 1
  refine next_of_stream usage fun r info h => ?_
  have hstream : streamResponseOpenAI2Claude c info = laterContent c.delta info := by
    simp [streamResponseOpenAI2Claude, h.2.1, h.2.2, hcount', hc, laterChunk, ← hr, hbody.2, hdelta]
  rw [hstream]
  exact hcontent r info h

private theorem next_chunks {chunks : List Chunk} (hcount : 1 ≤ count)
    (hbody : ∀ c ∈ chunks, c.choices ≠ [] ∧ c.reason = "")
    (hnumber : numberChunks seen chunks = some seen') :
    Reads (Running seen g count) (forEach (deliver usage) (chunks.map .next))
      (Running seen' (ToolGroup.chunks g chunks) (count + chunks.length)) := by
  induction chunks generalizing seen g count with
  | nil =>
    cases hnumber
    exact Triple.skip fun r info h => by simpa [chunks] using h
  | cons c chunks ih =>
    obtain ⟨seen₁, hfirst, hrest⟩ := Option.bind_eq_some_iff.mp hnumber
    have hc := next_body (g := g) usage hcount (hbody c mem_cons_self) hfirst
    have hcs := ih (g := g.bind fun g => g.chunk c.delta) (by omega : 1 ≤ count + 1)
      (fun c' hc' => hbody c' (mem_cons_of_mem c hc')) hrest
    have hlength : count + 1 + (chunks.length : Int) = count + ((c :: chunks).length : Int) := by
      simp only [length_cons, Nat.cast_add, Nat.cast_one]
      omega
    rw [hlength] at hcs
    exact hc.andThen hcs

/-! ### The first delivery -/

variable {choice : StreamChoice} {rest : List StreamChoice} {estimate : Int}

theorem next_first_of_finish (estimate : Int) (hc : c.choices = choice :: rest)
    (hnumber : numberFragments 0 0 choice.delta.toolCalls = some seen)
    (hfinish : Reads
      (fun r info => Healthy seen (.first choice.delta) r info ∧ info.control = (false, 1, c.usage))
      (firstFinish c choice) Q) :
    Reads (Begins estimate) (deliver usage (.next c)) Q := by
  have hstart : Reads
      (fun r info => r = some .fresh ∧ info.lastMessagesType = .none ∧ info.index = 0)
      (sendMessageStart c)
      (fun r info => (Healthy 0 .before r info ∧ info.lastMessagesType = .none) ∧ info.index = 0) :=
    fun r info h => ⟨sendMessageStart_fresh c r info h, h.2.2⟩
  have hkeeps : Keeps control (sendMessageStart c) := fun _ => rfl
  have htools := (firstToolCalls_healthy hnumber).frame
    (keeps_firstToolCalls choice.delta.toolCalls) (· = (false, 1, c.usage))
  have hcontent := (firstContent_healthy choice.delta seen).frame
    (keeps_firstContent choice.delta) (· = (false, 1, c.usage))
  have hall := (hstart.frame hkeeps (· = (false, 1, c.usage))).andThen
    (htools.andThen (hcontent.andThen hfinish))
  rintro r info ⟨rfl, rfl⟩
  have hstream := hall (some .fresh)
    { start estimate with sendResponseCount := 1, usage := c.usage } ⟨⟨rfl, rfl, rfl⟩, rfl⟩
  have husage : (c.usage <|> none) = c.usage := by cases c.usage <;> rfl
  simpa [deliver, handleStreamFormat, handleClaudeFormat, streamResponseOpenAI2Claude,
    start, husage, firstChunk, hc] using hstream

private theorem next_first_finish (hfinish : c.choices ≠ [] ∧ c.reason ≠ "")
    (hnumber : numberFragments 0 0 c.delta.toolCalls = some seen) :
    Reads (Begins estimate) (deliver usage (.next c)) (Over (c.usage.isSome = true)) := by
  obtain ⟨choice, rest, hc, hdelta, hr⟩ := exists_choice hfinish.1
  rw [hdelta] at hnumber
  refine next_first_of_finish usage estimate hc hnumber ?_
  rintro r info ⟨h, hcontrol⟩
  simp only [ConvertInfo.control, Prod.mk.injEq] at hcontrol
  have hreason : choice.reason ≠ "" := hr ▸ hfinish.2
  have husage : (c.usage <|> info.usage) = c.usage := by
    rw [hcontrol.2.2]
    cases c.usage <;> rfl
  have hmessage : firstFinish c choice info =
      finishMessage c.usage (stopReasonOpenAI2Claude choice.reason)
        { info with finishReason := choice.reason } := by
    simp [firstFinish, if_pos hreason, husage]
  have hstatus : Status seen (some (.first choice.delta)) r
      { info with finishReason := choice.reason } := Status.congr h rfl
  rw [hmessage]
  cases c.usage with
  | none =>
    obtain ⟨hread, hdone⟩ := finishMessage_none (stopReasonOpenAI2Claude choice.reason) r _ hstatus
    exact ⟨by simp [hread], hdone⟩
  | some u =>
    obtain ⟨hread, hdone⟩ := finishMessage_status u (stopReasonOpenAI2Claude choice.reason) seen
      (some (.first choice.delta)) r _ hstatus
    exact ⟨by simpa using hread, hdone⟩

private theorem last_second :
    Reads (Running seen g 1) (deliver usage (.last c)) (fun r _ => r ≠ some .finished) := by
  rintro r info ⟨h, hdone, hcount⟩
  have hagain : readEvent r (.messageStart c.id c.model info.estimatePromptTokens) = none := by
    rcases h.reading with rfl | ⟨next, opened, rfl⟩ <;> rfl
  simp only [deliver, handleFinalResponse, streamResponseOpenAI2Claude, hdone, hcount, firstChunk,
    sendMessageStart, andThen, emit, Bool.false_eq_true, if_false, if_true, cons_append,
    nil_append, foldl_cons, hagain, foldl_readEvent_none]
  simp

end

/-! ### Without a first chunk -/

def NotMessageStart (e : ClaudeEvent) : Prop := e.frame ≠ .messageStart

theorem emits_block {block : ContentBlock} {delta : BlockDelta} :
    Emits NotMessageStart ((startBlock kind block).andThen (emitDelta delta)) := by
  refine (emits_startBlock (fun _ => nofun) (fun _ => nofun) kind).andThen ?_
  intro info e he
  obtain rfl := mem_singleton.mp he
  exact nofun

private theorem emits_toolFragments (toolCalls : List ToolCallResponse) (position : Int) :
    Emits NotMessageStart (toolFragments position toolCalls) := by
  induction toolCalls generalizing position with
  | nil => intro info e he; contradiction
  | cons toolCall toolCalls ih =>
    refine Emits.andThen ?_ (ih (position + 1))
    intro info e he
    simp only [toolFragment, mem_append, mem_ite_nil_right, mem_singleton] at he
    rcases he with ⟨-, rfl⟩ | ⟨-, rfl⟩ <;> exact nofun

private theorem emits_laterContent : Emits NotMessageStart (laterContent d) := by
  unfold laterContent
  split_ifs
  · refine (emits_enterTools fun _ => nofun).andThen
      ((emits_toolFragments d.toolCalls 0).andThen ?_)
    intro info e he
    contradiction
  · exact emits_block
  · exact emits_block
  · intro info e he
    contradiction

private theorem unstarted {events : List ClaudeEvent} (h : ∀ e ∈ events, NotMessageStart e) :
    events.foldl readEvent (some .fresh) ≠ some .finished := by
  cases events with
  | nil => simp
  | cons e =>
    have he : readEvent (some .fresh) e = none := by
      have := h e mem_cons_self
      cases e <;> first | rfl | exact absurd rfl this
    rw [foldl_cons, he, foldl_readEvent_none]
    simp

variable {estimate : Int}

private theorem last_only {c : Chunk} {usage : Usage} (hfinish : c.choices ≠ [] ∧ c.reason ≠ "") :
    Reads (Begins estimate) (deliver usage (.last c)) (fun r _ => r ≠ some .finished) := by
  obtain ⟨choice, rest, hc, hdelta, hr⟩ := exists_choice hfinish.1
  rintro r info ⟨rfl, rfl⟩
  apply unstarted
  have hreason : choice.reason ≠ "" := hr ▸ hfinish.2
  intro e he
  simp only [deliver, handleFinalResponse, streamResponseOpenAI2Claude, start, hc,
    laterChunk, if_neg hreason, Bool.false_eq_true, if_false, zero_ne_one] at he
  cases husage : c.usage with
  | none => simp [husage] at he
  | some u =>
    simp only [husage] at he
    have hfinish : Emits NotMessageStart
        (finishMessage (some u) (stopReasonOpenAI2Claude choice.reason)) :=
      emits_finishMessage (some u) (fun _ => nofun) (fun _ => nofun) nofun
    exact emits_laterContent.andThen hfinish _ e he

/-! ## Whole streams -/

private theorem numberChunks_append (first second : List Chunk) (seen : Int) :
    numberChunks seen (first ++ second) =
      (numberChunks seen first).bind fun seen => numberChunks seen second := by
  induction first generalizing seen with
  | nil => rfl
  | cons c first ih => simp [numberChunks, ih, Option.bind_assoc]

theorem ToolGroup.chunks_append (first second : List Chunk) (g : Option ToolGroup) :
    chunks g (first ++ second) = chunks (chunks g first) second := by
  induction first generalizing g with
  | nil => rfl
  | cons c first ih => simp [ToolGroup.chunks, ih]

private theorem deliver_body (usage : Usage) (estimate : Int) {first : Chunk} {rest : List Chunk}
    {seen : Int} (hbody : ∀ c ∈ first :: rest, c.choices ≠ [] ∧ c.reason = "")
    (hnumber : numberChunks 0 (first :: rest) = some seen) :
    Reads (Begins estimate)
      (forEach (deliver usage) ((first :: rest).map .next))
      (Running seen (chunks (some (.first first.delta)) rest) (1 + rest.length)) := by
  obtain ⟨seen₁, hfirst, hrest⟩ := Option.bind_eq_some_iff.mp hnumber
  refine Triple.andThen ?_
    (next_chunks usage le_rfl (fun c hc => hbody c (mem_cons_of_mem first hc)) hrest)
  obtain ⟨hne, hreason⟩ := hbody first mem_cons_self
  obtain ⟨choice, others, hc, hdelta, hr⟩ := exists_choice hne
  rw [hdelta] at hfirst ⊢
  refine next_first_of_finish usage estimate hc hfirst ?_
  rintro r info ⟨h, hcontrol⟩
  have hfinish : firstFinish first choice info = ([], info) := by
    simp [firstFinish, ← hr, hreason]
  rw [hfinish]
  simp only [ConvertInfo.control, Prod.mk.injEq] at hcontrol
  exact ⟨h, hcontrol.1, hcontrol.2.1⟩

private theorem deliver_finish_first (usage : Usage) {s : ChunkStream} (hs : s.WellFormed)
    (hbody : s.body = []) :
    Reads (Begins estimate) (forEach (deliver usage) (deliveries s.chunks))
      (fun r _ => r = some .finished ↔ s.Convertible) := by
  have hconvertible : s.Convertible ↔ s.finish.usage.isSome = true ∧ s.usageOnly.isSome = true := by
    simp [ChunkStream.Convertible, hbody]
  cases hu : s.usageOnly with
  | none =>
    have hchunks : deliveries s.chunks = [.last s.finish] := by
      simp [ChunkStream.chunks, hbody, hu, deliveries]
    rw [hchunks]
    refine (Triple.singleton (last_only hs.finish)).weaken ?_
    intro r info hr
    exact iff_of_false hr (by simp [hconvertible, hu])
  | some u =>
    have hchunks : s.chunks = [s.finish, u] := by simp [ChunkStream.chunks, hbody, hu]
    obtain ⟨seen, hnumber⟩ := Option.isSome_iff_exists.mp hs.numbered
    rw [hchunks] at hnumber ⊢
    obtain ⟨seen₁, hfinish, -⟩ := Option.bind_eq_some_iff.mp hnumber
    refine ((next_first_finish usage hs.finish hfinish).cons
      (Triple.singleton (last_over usage _))).weaken ?_
    intro r info hr
    simpa [hconvertible, hu] using hr.1

section

variable {f : Chunk} {seen seen' count : Int} {g : Option ToolGroup}

theorem last_finish (usage : Usage) (hcount : count ≠ 1) (hfinish : f.choices ≠ [] ∧ f.reason ≠ "")
    (hnumber : Numbers f.delta seen seen') :
    Reads (Running seen g count) (deliver usage (.last f))
      (fun r _ => r = some .finished ↔ f.usage.isSome = true ∧
        (g.bind fun g => g.chunk f.delta).isSome = true) := by
  cases husage : f.usage with
  | some =>
    have hstream := stream_finish (g := g) hcount hfinish.1 hfinish.2 husage hnumber
    refine (last_of_stream usage hstream).weaken ?_
    intro r info hr
    simpa using hr.1
  | none =>
    rintro r info ⟨h, hdone, rfl⟩
    have hstream : streamResponseOpenAI2Claude f { info with usage := some usage } =
        ([], { info with usage := some usage, finishReason := f.reason }) :=
      stream_defer hfinish.1 hfinish.2 husage hdone hcount
    simp only [deliver, handleFinalResponse, hstream, foldl_nil]
    refine iff_of_false ?_ (by simp)
    rcases h.reading with rfl | ⟨next, opened, rfl⟩ <;> simp

private theorem finish_then_usage (usage : Usage) {u : Chunk} (hcount : 1 ≤ count)
    (hfinish : f.choices ≠ [] ∧ f.reason ≠ "") (hu : u.choices = [] ∧ u.usage.isSome = true)
    (hnumber : Numbers f.delta seen seen') :
    Reads (Running seen g count) (forEach (deliver usage) [.next f, .last u])
      (fun r _ => r = some .finished ↔
        (if f.usage.isSome = true then g.bind fun g => g.chunk f.delta else g).isSome = true) := by
  have hcount' : count + 1 ≠ 1 := by omega
  cases husage : f.usage with
  | some =>
    have hstream := stream_finish (g := g) hcount' hfinish.1 hfinish.2 husage hnumber
    refine ((next_of_stream usage hstream).cons (Triple.singleton (last_over usage _))).weaken ?_
    intro r info hr
    simpa using hr.1
  | none =>
    have hstream : Reads (Running seen g (count + 1)) (streamResponseOpenAI2Claude f)
        (Running seen g (count + 1)) := by
      rintro r info ⟨h, hdone, hc⟩
      rw [stream_defer hfinish.1 hfinish.2 husage hdone (hc ▸ hcount')]
      exact ⟨h.congr rfl, hdone, hc⟩
    have hover : Reads (Running seen g (count + 1)) (streamResponseOpenAI2Claude u)
        (Over (g.isSome = true)) := stream_usageOnly hcount' hu.1 hu.2
    refine ((next_of_stream usage hstream).cons
      (Triple.singleton (last_of_stream usage hover))).weaken ?_
    intro r info hr
    simpa using hr.1

end

private theorem deliver_finish_later (usage : Usage) (estimate : Int) {s : ChunkStream}
    (hs : s.WellFormed) {first : Chunk} {rest : List Chunk} (hbody : s.body = first :: rest) :
    Reads (Begins estimate) (forEach (deliver usage) (deliveries s.chunks))
      (fun r _ => r = some .finished ↔ s.Convertible) := by
  obtain ⟨seen', hnumber⟩ := Option.isSome_iff_exists.mp hs.numbered
  rw [ChunkStream.chunks, numberChunks_append, hbody] at hnumber
  obtain ⟨seen, hnumbody, hnumrest⟩ := Option.bind_eq_some_iff.mp hnumber
  obtain ⟨seen₁, hnumfinish, -⟩ := Option.bind_eq_some_iff.mp hnumrest
  have hrun := deliver_body usage estimate (hbody ▸ hs.body) hnumbody
  have hconverted : chunks (some (.first first.delta)) (s.converted rest) =
      if s.finish.usage.isSome = true then
        (chunks (some (.first first.delta)) rest).bind fun g => g.chunk s.finish.delta
      else ToolGroup.chunks (some (.first first.delta)) rest := by
    unfold ChunkStream.converted
    split <;> simp [ToolGroup.chunks_append, ToolGroup.chunks]
  cases hu : s.usageOnly with
  | none =>
    have hchunks : s.chunks = (first :: rest) ++ [s.finish] := by
      simp [ChunkStream.chunks, hbody, hu]
    rw [hchunks, deliveries_concat]
    by_cases hshort : rest = []
    · -- two chunks: the second one is announced again
      subst hshort
      refine (hrun.append (Triple.singleton (last_second usage))).weaken ?_
      intro r info hr
      exact iff_of_false hr (by simp [ChunkStream.Convertible, hbody, hchunks])
    have hlength : 0 < rest.length := length_pos_iff.mpr hshort
    have hlast := last_finish (g := chunks (some (.first first.delta)) rest) usage
      (by omega : 1 + (rest.length : Int) ≠ 1) hs.finish hnumfinish
    refine (hrun.append (Triple.singleton hlast)).weaken ?_
    intro r info hr
    have hlong : 3 ≤ s.chunks.length := by
      rw [hchunks]
      simp
      omega
    rw [hr]
    simp only [ChunkStream.Convertible, hbody, hconverted, hlong, hu, true_and,
      Option.isSome_none, Bool.false_eq_true, or_false]
    refine and_congr_right fun husage => ?_
    rw [if_pos husage]
  | some u =>
    have hchunks : s.chunks = (first :: rest ++ [s.finish]) ++ [u] := by
      simp [ChunkStream.chunks, hbody, hu]
    have htail := finish_then_usage (g := chunks (some (.first first.delta)) rest) usage
      (by omega : 1 ≤ 1 + (rest.length : Int)) hs.finish (hs.usageOnly u hu) hnumfinish
    rw [hchunks, deliveries_concat, map_append, append_assoc]
    refine (hrun.append htail).weaken ?_
    intro r info hr
    have hlong : 3 ≤ s.chunks.length := by
      rw [hchunks]
      simp
    rw [hr]
    simp only [ChunkStream.Convertible, hbody, hconverted, hlong, hu, true_and,
      Option.isSome_some, or_true]

/--
The events of a well-formed stream are a complete message exactly if the stream
has a first chunk to announce and a usage to end with, and its tool calls come
in one group of blocks that were all started.
-/
theorem oaiStreamHandler_isMessage_iff (estimate : Int) (usage : Usage) (s : ChunkStream)
    (hs : s.WellFormed) :
    IsMessage ((oaiStreamHandler estimate usage s.chunks).map frame) ↔ s.Convertible := by
  have htriple : Reads (Begins estimate) (forEach (deliver usage) (deliveries s.chunks))
      (fun r _ => r = some .finished ↔ s.Convertible) := by
    cases hbody : s.body with
    | nil => exact deliver_finish_first usage hs hbody
    | cons => exact deliver_finish_later usage estimate hs hbody
  rw [← accepts_iff_isMessage, Accepts, foldl_map]
  exact htriple (some .fresh) (.start estimate) ⟨rfl, rfl⟩

def thinkingThenTool : ChunkStream where
  body :=
    [chunkOf { content := some "" },
      chunkOf { reasoningContent := some "hm" },
      chunkOf { content := some "Looking" },
      chunkOf { toolCalls := [⟨some 0, "call_1", "find", ""⟩] },
      chunkOf { toolCalls := [⟨some 0, "", "", emptyObject⟩] }]
  finish := chunkOf {} (some "tool_calls")
  usageOnly := some { id := "chatcmpl-1", model := "gpt-4o", choices := [], usage := some {} }

theorem oaiStreamHandler_isMessage_thinkingThenTool :
    thinkingThenTool.WellFormed ∧ thinkingThenTool.Convertible ∧
      IsMessage ((oaiStreamHandler 0 {} thinkingThenTool.chunks).map ClaudeEvent.frame) := by
  have hs : thinkingThenTool.WellFormed := ⟨by decide, by decide, by decide, by decide⟩
  have hconvertible : thinkingThenTool.Convertible := by decide
  exact ⟨hs, hconvertible,
    (oaiStreamHandler_isMessage_iff 0 {} thinkingThenTool hs).mpr hconvertible⟩

def twoChunks : ChunkStream where
  body := [chunkOf { content := some "Hi" }]
  finish := chunkOf {} (some "stop") (some {})
  usageOnly := none

def textBetweenTools : ChunkStream where
  body :=
    [chunkOf { content := some "" },
      chunkOf { toolCalls := [⟨some 0, "call_1", "find", emptyObject⟩] },
      chunkOf { content := some "and" },
      chunkOf { toolCalls := [⟨some 1, "call_2", "find", emptyObject⟩] }]
  finish := chunkOf {} (some "tool_calls") (some {})
  usageOnly := none

/-- The last of two chunks announces the message a second time; the second tool
call goes to block 3, so that block 2 is stopped without having been started. -/
theorem oaiStreamHandler_isMessage_counterexample :
    twoChunks.WellFormed ∧
      (oaiStreamHandler 0 {} twoChunks.chunks).map frame =
        [.messageStart, .blockStart 0, .blockDelta 0,
          .messageStart, .blockStop 0, .messageDelta, .messageStop] ∧
      ¬ IsMessage ((oaiStreamHandler 0 {} twoChunks.chunks).map frame) ∧
      textBetweenTools.WellFormed ∧
      (oaiStreamHandler 0 {} textBetweenTools.chunks).map frame =
        [.messageStart, .blockStart 0, .blockDelta 0, .blockStop 0,
          .blockStart 1, .blockDelta 1, .blockStop 1,
          .blockStart 3, .blockDelta 3, .blockStop 2, .blockStop 3,
          .messageDelta, .messageStop] ∧
      ¬ IsMessage ((oaiStreamHandler 0 {} textBetweenTools.chunks).map frame) := by
  simp only [← accepts_iff_isMessage]
  refine ⟨⟨?_, ?_, ?_, ?_⟩, ?_, ?_, ⟨?_, ?_, ?_, ?_⟩, ?_, ?_⟩
  all_goals decide

end NewApi.Claude
