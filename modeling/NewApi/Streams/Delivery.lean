import NewApi.Streams.Scanner

/-!
# What reaches the handler

Without a stop of `dataHandler` the payloads of the lines are handed over in order,
all of them, before the handler goroutine ends.
-/

namespace NewApi.Streams

open Foundation List Relation

/-- The payloads handed over are those expected, no others and none twice, and all
of them when the handler goroutine is done. -/
structure Delivers (cfg : Config) (expected : List String) : Prop where
  safe : ∀ s, Reachable cfg s →
    s.delivered <+: expected ∧ (s.handler.done = true → s.delivered = expected)
  live : Reaches cfg (fun s => s.delivered = expected) (init cfg)

theorem Delivers.unique {cfg : Config} {expected expected' : List String}
    (h : Delivers cfg expected) (h' : Delivers cfg expected') : expected = expected' := by
  obtain ⟨s, hs, hall⟩ := h.live.exists_reached fun _ _ => .own
  obtain ⟨s', hs', hall'⟩ := h'.live.exists_reached fun _ _ => .own
  have hle : expected <+: expected' := hall ▸ (h'.safe s hs).1
  have hge : expected' <+: expected := hall' ▸ (h.safe s' hs').1
  exact hle.eq_of_length (Nat.le_antisymm hle.length_le hge.length_le)

/-- `dataHandler` stops at no payload that it gets. -/
def Config.Unstopped (cfg : Config) : Prop :=
  ∀ k < (payloads cfg.lines).length, cfg.stops k = false

section

variable {cfg : Config} {s s' : State}

theorem Signals.closed_of_done (h : Signals cfg s) (hstops : cfg.Unstopped)
    (hdone : s.handler.done = true) : s.closed = true ∧ s.dataChan = [] := by
  rcases h.ends hdone with hclosed | ⟨k, hlength, hstop⟩
  · exact hclosed
  · have hk : k < (payloads cfg.lines).length := by
      have hle := h.handed.length_le
      omega
    rw [hstops k hk] at hstop
    cases hstop

theorem Signals.quiet (h : Signals cfg s) (hstops : cfg.Unstopped)
    (hactive : s.scanner.active = true) : s.tokens = 0 ∧ s.main = .waiting := by
  have hopen : s.closed = false := by
    rw [h.closed_eq]
    exact ScannerPhase.shut_of_active hactive
  have hhandler : s.handler.sent = 0 := by
    cases hphase : s.handler with
    | exited =>
      have hclosed := (h.closed_of_done hstops (by rw [hphase]; rfl)).1
      rw [hopen] at hclosed
      cases hclosed
    | _ => rfl
  have hscanner : s.scanner.sent = 0 := by
    cases hphase : s.scanner with
    | exited =>
      rw [hphase] at hactive
      cases hactive
    | _ => rfl
  have hmain : s.main = .waiting := by
    by_contra hmain
    have hwoken := h.tokens.woken hmain
    omega
  have hsent := h.tokens.sent
  simp only [hmain, MainPhase.sent] at hsent
  exact ⟨by omega, hmain⟩

def AllPassed (cfg : Config) (s : State) : Prop :=
  s.scanner.active = false → s.passed = payloads cfg.lines

private theorem allPassed_step (hstops : cfg.Unstopped) (hflow : Flow cfg s)
    (hsignals : Signals cfg s) (h : AllPassed cfg s) (hstep : Step cfg s s') :
    AllPassed cfg s' := by
  intro hended
  rw [hstep.passed_eq (.inl hended)]
  cases hactive : s.scanner.active with
  | false => exact h hactive
  | true =>
    have hquiet := hsignals.quiet hstops hactive
    obtain ⟨before, left, hreading⟩ := hflow.reading hactive
    have hleft := hreading.ahead
    rw [hreading.passed, hreading.lines]
    cases hstep with
    | eof hscanner =>
      rw [hscanner] at hleft
      cases hleft
      rw [append_nil]
    | @read line rest hscanner =>
      rw [hscanner] at hleft
      cases hleft
      cases hkind : lineKind line with
      | done => simp [payloads_append hreading.noEnd, payloads, hkind]
      | _ =>
        rw [hkind] at hended
        cases hended
    | checkStop | sendStop => omega
    | checkCancelled hscanner hmain | sendCancelled hscanner hmain => exact absurd hquiet.2 hmain
    | scan hscanner | send hscanner _ => cases hended
    | close hscanner | scannerSignal hscanner _ =>
      rw [hscanner] at hactive
      cases hactive
    | _ =>
      rw [hactive] at hended
      cases hended

theorem Reachable.allPassed (hstops : cfg.Unstopped) (h : Reachable cfg s) :
    AllPassed cfg s := by
  apply h.invariant
  · intro hended
    cases hended
  · intro s s' hs hpassed hstep
    exact allPassed_step hstops hs.flow hs.signals hpassed hstep
  · intro s hpassed
    exact hpassed

theorem passed_eq_delivered (hheld : s.handler.held = []) (hempty : s.dataChan = []) :
    s.passed = s.delivered := by
  simp [State.passed, hheld, hempty]

theorem HandlerPhase.held_of_done {phase : HandlerPhase} (h : phase.done = true) :
    phase.held = [] := by
  cases phase <;> first | rfl | cases h

section

variable (hstops : cfg.Unstopped)
include hstops

theorem Reachable.delivered_of_done (h : Reachable cfg s) (hdone : s.handler.done = true) :
    s.delivered = payloads cfg.lines := by
  obtain ⟨hclosed, hempty⟩ := h.signals.closed_of_done hstops hdone
  rw [← passed_eq_delivered (HandlerPhase.held_of_done hdone) hempty]
  apply h.allPassed hstops
  cases hactive : s.scanner.active with
  | false => rfl
  | true =>
    rw [h.signals.closed_eq, ScannerPhase.shut_of_active hactive] at hclosed
    cases hclosed

theorem Reachable.delivered_of_stuck (h : Reachable cfg s) (hstuck : Stuck (Step cfg) s) :
    s.delivered = payloads cfg.lines := by
  have hsignals := h.signals
  rcases stuck_handler hsignals.tokens hstuck with hexited | ⟨hidle, hempty, hopen⟩
  · apply h.delivered_of_done hstops
    rw [hexited]
    rfl
  rcases stuck_scanner hsignals.tokens hstuck with hexited | ⟨hscanning, -⟩ | ⟨-, hfull⟩
  · rw [hsignals.closed_eq, hexited] at hopen
    cases hopen
  · obtain ⟨before, left, hreading⟩ := h.flow.reading (by rw [hscanning]; rfl)
    have hleft := hreading.ahead
    rw [hscanning] at hleft
    cases hleft
    rw [← passed_eq_delivered (by rw [hidle]; rfl) hempty, hreading.passed, hreading.lines,
      append_nil]
  · exact absurd hempty hfull

theorem delivers_payloads : Delivers cfg (payloads cfg.lines) where
  safe s hs := ⟨(delivered_passed s).trans hs.flow.within, hs.delivered_of_done hstops⟩
  live := by
    refine reaches_of_stuck (fun _ _ => Reachable.next) ?_ ReflTransGen.refl
    intro s hs hstuck
    exact hs.delivered_of_stuck hstops hstuck

end

end

def dataEnd (line : String) : Bool := hasPrefix line "data:" && hasPrefix (payloadOf line) "[DONE]"

def isEndMarker (line : String) : Bool := dataEnd line || hasPrefix line "[DONE]"

def duePayloads (lines : List String) : List String :=
  (((lines.takeWhile fun line => !isEndMarker line).filter fun line => hasPrefix line "data:").map
    payloadOf).filter fun data => data ≠ ""

/-- No line starts with the end marker before a data line carries it. -/
def NoBareDone (lines : List String) : Prop :=
  ∀ line ∈ lines.takeWhile fun line => !dataEnd line, hasPrefix line "[DONE]" = false

instance (lines : List String) : Decidable (NoBareDone lines) :=
  inferInstanceAs (Decidable (∀ line ∈ _, _))

variable {line : String} {lines : List String}

theorem lineKind_of_data (h : hasPrefix line "data:" = true) :
    lineKind line = if payloadOf line = "" then .skip
      else if hasPrefix (payloadOf line) "[DONE]" then .done else .payload (payloadOf line) := by
  obtain ⟨rest, hrest⟩ := hasPrefix_iff.mp h
  unfold lineKind
  by_cases hshort : line.utf8ByteSize < 6
  · -- a line of five bytes has no payload
    have hnone : String.ofList rest = "" := by
      apply String.utf8ByteSize_eq_zero_iff.mp
      rw [utf8ByteSize_of_hasPrefix hrest] at hshort
      have hfive : "data:".utf8ByteSize = 5 := rfl
      omega
    have hempty : payloadOf line = "" := by
      have hdrop : line.toList.drop 5 = rest := by
        rw [hrest]
        rfl
      rw [payloadOf, hdrop, hnone]
      rfl
    rw [if_pos hshort, if_pos hempty]
  · rw [if_neg hshort, if_neg (by simp [h])]
    by_cases hempty : payloadOf line = ""
    · rw [if_pos hempty, if_pos hempty]
    · rw [if_neg hempty, if_neg hempty]
      cases hasPrefix (payloadOf line) "[DONE]" <;> rfl

private theorem lineKind_of_other (hdata : hasPrefix line "data:" = false)
    (hdone : hasPrefix line "[DONE]" = false) : lineKind line = .skip := by
  unfold lineKind
  rw [if_pos (⟨by simp [hdata], by simp [hdone]⟩ : ¬ _ ∧ ¬ _)]
  split <;> rfl

theorem duePayloads_of_end (h : isEndMarker line = true) (lines : List String) :
    duePayloads (line :: lines) = [] := by
  simp [duePayloads, h]

private theorem duePayloads_of_data (hend : isEndMarker line = false)
    (hdata : hasPrefix line "data:" = true) (lines : List String) :
    duePayloads (line :: lines) =
      if payloadOf line = "" then duePayloads lines else payloadOf line :: duePayloads lines := by
  unfold duePayloads
  rw [takeWhile_cons_of_pos (by simp [hend]), filter_cons_of_pos (by simp [hdata]),
    map_cons, filter_cons]
  by_cases hempty : payloadOf line = "" <;> simp [hempty]

private theorem duePayloads_of_other (hend : isEndMarker line = false)
    (hdata : hasPrefix line "data:" = false) (lines : List String) :
    duePayloads (line :: lines) = duePayloads lines := by
  unfold duePayloads
  rw [takeWhile_cons_of_pos (by simp [hend]), filter_cons_of_neg (by simp [hdata])]

private theorem noBareDone_cons (hend : dataEnd line = false) :
    NoBareDone (line :: lines) ↔ hasPrefix line "[DONE]" = false ∧ NoBareDone lines := by
  unfold NoBareDone
  rw [takeWhile_cons_of_pos (by simp [hend]), forall_mem_cons]

private theorem lineKind_of_bare (h : hasPrefix line "[DONE]" = true) :
    lineKind line = .payload (payloadOf line) := by
  obtain ⟨rest, hrest⟩ := hasPrefix_iff.mp h
  have hlong : ¬ line.utf8ByteSize < 6 := by
    rw [utf8ByteSize_of_hasPrefix hrest]
    exact Nat.not_lt.mpr (Nat.le_add_right _ _)
  have hhead : (payloadOf line).toList.head? = some ']' := by
    have hdrop : line.toList.drop 5 = ']' :: rest := by
      rw [hrest]
      rfl
    rw [payloadOf, hdrop, trimSpace, String.toList_ofList, String.toList_ofList,
      dropWhile_cons_of_neg (by decide), head?_rdropWhile _ (by decide)]
  obtain ⟨more, hmore⟩ := head?_eq_some_iff.mp hhead
  have hsome : payloadOf line ≠ "" := by
    intro hempty
    rw [hempty] at hmore
    cases hmore
  have hopen : ¬ hasPrefix (payloadOf line) "[DONE]" := by
    rw [hasPrefix, hmore]
    exact Bool.false_ne_true
  rw [lineKind, if_neg hlong, if_neg (by simp [h]), if_neg hsome, if_pos hopen]

/-- What is taken from the first lines is what is due of all of them. -/
private theorem payloads_eq_due_iff (unread : List String) :
    payloads lines = duePayloads (lines ++ unread) ↔
      NoBareDone lines ∧ (lines.any dataEnd = true ∨ duePayloads unread = []) := by
  induction lines with
  | nil => simpa [payloads, NoBareDone] using eq_comm
  | cons line lines ih =>
    rw [payloads, cons_append, any_cons]
    cases hend : dataEnd line with
    | true =>
      obtain ⟨hdata, hmarked⟩ := Bool.and_eq_true_iff.mp hend
      have hsome : payloadOf line ≠ "" := by
        intro hempty
        rw [hempty] at hmarked
        cases hmarked
      rw [lineKind_of_data hdata, if_neg hsome, if_pos hmarked,
        duePayloads_of_end (by simp [isEndMarker, hend])]
      simp [NoBareDone, hend]
    | false =>
      rw [noBareDone_cons hend, Bool.false_or]
      cases hdone : hasPrefix line "[DONE]" with
      | true =>
        rw [lineKind_of_bare hdone, duePayloads_of_end (by simp [isEndMarker, hdone])]
        simp
      | false =>
        have hgoes : isEndMarker line = false := by simp [isEndMarker, hend, hdone]
        cases hdata : hasPrefix line "data:" with
        | false =>
          rw [lineKind_of_other hdata hdone, duePayloads_of_other hgoes hdata]
          simpa using ih
        | true =>
          have hmarked : hasPrefix (payloadOf line) "[DONE]" = false := by
            simpa [dataEnd, hdata] using hend
          rw [lineKind_of_data hdata, duePayloads_of_data hgoes hdata, hmarked]
          by_cases hempty : payloadOf line = "" <;> simpa [hempty] using ih

theorem Config.lines_append_unread (cfg : Config) :
    cfg.lines ++ cfg.unread = cfg.sent.map dropCR := by
  rw [Config.lines, Config.unread, ← map_append, takeWhile_append_dropWhile]

/--
If `dataHandler` never stops, the payloads handed over are exactly those of the data
lines before the first end marker if and only if no line that is read starts with
`[DONE]` before a data line with that payload (such a line is taken for data), and
such a data line is read or no payload is due from the first over-long line on.
-/
theorem sse_payloads_delivered_iff (cfg : Config) (hstops : cfg.Unstopped) :
    Delivers cfg (duePayloads (cfg.sent.map dropCR)) ↔
      NoBareDone cfg.lines ∧
        (cfg.lines.any dataEnd = true ∨ duePayloads cfg.unread = []) := by
  rw [← payloads_eq_due_iff, cfg.lines_append_unread]
  constructor
  · exact (delivers_payloads hstops).unique
  · intro h
    rw [← h]
    exact delivers_payloads hstops

def markedStream : Config where
  ping := true
  sent := [": keep-alive", "data: one\r", "", "data:\r", "data:two ", "data: [DONE]",
    "data: late"]
  closes := true
  stops _ := false

theorem sse_payloads_delivered_marked : Delivers markedStream ["one", "two"] := by
  have hdue : duePayloads (markedStream.sent.map dropCR) = ["one", "two"] := by decide
  rw [← hdue]
  exact (sse_payloads_delivered_iff markedStream (fun _ _ => rfl)).mpr (by decide)

def bareStream : Config where
  ping := false
  sent := ["data: one", "[DONE]", "data: late"]
  closes := true
  stops _ := false

/-- The bare marker is handed over as a bracket, and the line after it too. -/
theorem sse_payloads_delivered_counterexample :
    Delivers bareStream ["one", "]", "late"] ∧
      duePayloads (bareStream.sent.map dropCR) = ["one"] ∧
      ¬ Delivers bareStream (duePayloads (bareStream.sent.map dropCR)) := by
  have hpayloads : payloads bareStream.lines = ["one", "]", "late"] := by decide
  have hdue : duePayloads (bareStream.sent.map dropCR) = ["one"] := by decide
  have hdelivers : Delivers bareStream (payloads bareStream.lines) :=
    delivers_payloads fun _ _ => rfl
  rw [hpayloads] at hdelivers
  refine ⟨hdelivers, hdue, ?_⟩
  intro h
  rw [hdue] at h
  have hsame := hdelivers.unique h
  revert hsame
  decide

end NewApi.Streams
