import NewApi.Foundation.GoString
import NewApi.Foundation.Run

/-!
# The stream scanner

`StreamScannerHandler` of `relay/helper/stream_scanner.go`: the goroutine that
reads the lines of the upstream, the one that hands the payloads to `dataHandler`,
the one that sends pings, and the main select, joined by `dataChan` and `stopChan`.
The timeout and a client that goes away are left out, so are the pings themselves.
-/

namespace NewApi.Streams

open Foundation List Relation

/-! ## Lines -/

inductive LineKind where
  | skip
  | payload (data : String)
  | done
  deriving DecidableEq

def payloadOf (line : String) : String := trimSpace (String.ofList (line.toList.drop 5))

/-- The length is counted in bytes.  Both spellings of a line lose five bytes. -/
def lineKind (line : String) : LineKind :=
  if line.utf8ByteSize < 6 then .skip
  else if ¬ hasPrefix line "data:" ∧ ¬ hasPrefix line "[DONE]" then .skip
  else if payloadOf line = "" then .skip
  else if ¬ hasPrefix (payloadOf line) "[DONE]" then .payload (payloadOf line)
  else .done

def payloads : List String → List String
  | [] => []
  | line :: rest =>
    match lineKind line with
    | .skip => payloads rest
    | .payload data => data :: payloads rest
    | .done => []

/-! ## The four parties -/

/-- In bytes; the setting is in megabytes. -/
def getScannerBufferSize (streamScannerMaxBufferMB : Int) : Nat :=
  if 0 < streamScannerMaxBufferMB then streamScannerMaxBufferMB.toNat * 2 ^ 20
  else 64 * 2 ^ 20

/-- The carriage return that `bufio.ScanLines` takes off. -/
def dropCR (line : String) : String :=
  if line.toList.getLast? = some '\r' then String.ofList line.toList.dropLast else line

/-- `sent` are the lines of the upstream without their newlines, `closes` says if it
ends after them or is silent, and `stops` at which of the payloads, counted from
zero, `dataHandler` stops. -/
structure Config where
  ping : Bool
  streamScannerMaxBufferMB : Int := 128
  sent : List String
  closes : Bool
  stops : Nat → Bool

namespace Config

/-- A line and its newline have to fit into the buffer: at the first that does not,
`Scan` fails with `bufio.ErrTooLong`. -/
def fits (cfg : Config) (line : String) : Bool :=
  line.utf8ByteSize < getScannerBufferSize cfg.streamScannerMaxBufferMB

/-- The lines that `Scan` returns. -/
def lines (cfg : Config) : List String := (cfg.sent.takeWhile cfg.fits).map dropCR

def unread (cfg : Config) : List String := (cfg.sent.dropWhile cfg.fits).map dropCR

/-- Whether `Scan` returns false after them. -/
def ends (cfg : Config) : Bool := cfg.closes || !cfg.sent.all cfg.fits

end Config

inductive MainPhase where
  | waiting
  | woken
  | cleaned
  deriving DecidableEq

inductive HandlerPhase where
  | idle
  | handling (data : String)
  | signalling
  | exited

inductive ScannerPhase where
  | scanning (rest : List String)
  | checking (line : String) (rest : List String)
  | sending (data : String) (rest : List String)
  | closing
  | signalling
  | exited

open ScannerPhase

/-- `ping` says if the ping goroutine runs, `closed` if `dataChan` is closed, and
`tokens` is the number of values in `stopChan`.  The context is cancelled when the
main select is left. -/
structure State where
  main : MainPhase := .waiting
  ping : Bool
  handler : HandlerPhase := .idle
  scanner : ScannerPhase
  dataChan : List String := []
  closed : Bool := false
  tokens : Nat := 0
  delivered : List String := []

def init (cfg : Config) : State := { ping := cfg.ping, scanner := .scanning cfg.lines }

def afterRead (rest : List String) : LineKind → ScannerPhase
  | .skip => .scanning rest
  | .payload data => .sending data rest
  | .done => .closing

def afterHandle (stopped : Bool) : HandlerPhase := if stopped then .signalling else .idle

inductive Step (cfg : Config) : State → State → Prop
  | wake {s : State} (hmain : s.main = .waiting) (htoken : 0 < s.tokens) :
      Step cfg s { s with main := .woken, tokens := s.tokens - 1 }
  | cleanup {s : State} (hmain : s.main = .woken) (hroom : s.tokens < 3) :
      Step cfg s { s with main := .cleaned, tokens := s.tokens + 1 }
  | pingTake {s : State} (hping : s.ping = true) (htoken : 0 < s.tokens) :
      Step cfg s { s with ping := false, tokens := s.tokens - 1 }
  | receive {s : State} {data : String} {rest : List String} (hhandler : s.handler = .idle)
      (hdata : s.dataChan = data :: rest) :
      Step cfg s { s with handler := .handling data, dataChan := rest }
  | handle {s : State} {data : String} (hhandler : s.handler = .handling data) :
      Step cfg s { s with
        handler := afterHandle (cfg.stops s.delivered.length)
        delivered := s.delivered ++ [data] }
  | drained {s : State} (hhandler : s.handler = .idle) (hempty : s.dataChan = [])
      (hclosed : s.closed = true) : Step cfg s { s with handler := .signalling }
  | handlerSignal {s : State} (hhandler : s.handler = .signalling) (hroom : s.tokens < 3) :
      Step cfg s { s with handler := .exited, tokens := s.tokens + 1 }
  | scan {s : State} {line : String} {rest : List String}
      (hscanner : s.scanner = .scanning (line :: rest)) :
      Step cfg s { s with scanner := .checking line rest }
  | eof {s : State} (hscanner : s.scanner = .scanning []) (hends : cfg.ends = true) :
      Step cfg s { s with scanner := .closing }
  | checkStop {s : State} {line : String} {rest : List String}
      (hscanner : s.scanner = .checking line rest) (htoken : 0 < s.tokens) :
      Step cfg s { s with scanner := .closing, tokens := s.tokens - 1 }
  | checkCancelled {s : State} {line : String} {rest : List String}
      (hscanner : s.scanner = .checking line rest) (hmain : s.main ≠ .waiting) :
      Step cfg s { s with scanner := .closing }
  -- the default branch, taken if no other is ready
  | read {s : State} {line : String} {rest : List String}
      (hscanner : s.scanner = .checking line rest) (htoken : s.tokens = 0)
      (hmain : s.main = .waiting) : Step cfg s { s with scanner := afterRead rest (lineKind line) }
  | send {s : State} {data : String} {rest : List String}
      (hscanner : s.scanner = .sending data rest) (hroom : s.dataChan.length < 10) :
      Step cfg s { s with scanner := .scanning rest, dataChan := s.dataChan ++ [data] }
  | sendStop {s : State} {data : String} {rest : List String}
      (hscanner : s.scanner = .sending data rest) (htoken : 0 < s.tokens) :
      Step cfg s { s with scanner := .closing, tokens := s.tokens - 1 }
  | sendCancelled {s : State} {data : String} {rest : List String}
      (hscanner : s.scanner = .sending data rest) (hmain : s.main ≠ .waiting) :
      Step cfg s { s with scanner := .closing }
  | close {s : State} (hscanner : s.scanner = .closing) :
      Step cfg s { s with scanner := .signalling, closed := true }
  | scannerSignal {s : State} (hscanner : s.scanner = .signalling) (hroom : s.tokens < 3) :
      Step cfg s { s with scanner := .exited, tokens := s.tokens + 1 }

/-- The ping goroutine may also end by itself: a ping fails, it has run for too long,
or the context is cancelled. -/
inductive Next (cfg : Config) : State → State → Prop
  | own {s s' : State} (h : Step cfg s s') : Next cfg s s'
  | pingExit {s : State} (hping : s.ping = true) : Next cfg s { s with ping := false }

def Reachable (cfg : Config) (s : State) : Prop := ReflTransGen (Next cfg) (init cfg) s

def Reaches (cfg : Config) (goal : State → Prop) (s : State) : Prop :=
  Inevitable (Next cfg) (Step cfg) goal s

/-! ## No run is infinite -/

def MainPhase.work : MainPhase → Nat
  | .waiting => 2
  | .woken => 1
  | .cleaned => 0

def HandlerPhase.work : HandlerPhase → Nat
  | .idle => 2
  | .handling _ => 3
  | .signalling => 1
  | .exited => 0

def ScannerPhase.work : ScannerPhase → Nat
  | .scanning rest => 6 * rest.length + 3
  | .checking _ rest => 6 * rest.length + 8
  | .sending _ rest => 6 * rest.length + 7
  | .closing => 2
  | .signalling => 1
  | .exited => 0

def State.work (s : State) : Nat :=
  s.main.work + s.ping.toNat + s.handler.work + s.scanner.work + 2 * s.dataChan.length

private theorem work_afterRead (rest : List String) (kind : LineKind) :
    (afterRead rest kind).work < 6 * rest.length + 8 := by
  cases kind with
  | skip =>
    change 6 * rest.length + 3 < _
    omega
  | payload =>
    change 6 * rest.length + 7 < _
    omega
  | done =>
    change 2 < _
    omega

private theorem work_afterHandle (stopped : Bool) : (afterHandle stopped).work < 3 := by
  cases stopped <;> decide

variable {cfg : Config} {s s' : State} {line : String}

theorem Step.work_lt (h : Step cfg s s') : s'.work < s.work := by
  unfold State.work
  cases h with
  | wake hmain | cleanup hmain => simp [hmain, MainPhase.work]
  | pingTake hping => simp [hping]
  | receive hhandler hdata =>
    simp only [hhandler, hdata, HandlerPhase.work, length_cons]
    omega
  | handle hhandler =>
    have hless := work_afterHandle (cfg.stops s.delivered.length)
    have hwork : s.handler.work = 3 := by rw [hhandler]; rfl
    dsimp only
    omega
  | drained hhandler | handlerSignal hhandler => simp [hhandler, HandlerPhase.work]
  | scan hscanner =>
    simp only [hscanner, work, length_cons]
    omega
  | eof hscanner | close hscanner | scannerSignal hscanner => simp [hscanner, work]
  | @read line rest hscanner =>
    have hless := work_afterRead rest (lineKind line)
    have hwork : s.scanner.work = 6 * rest.length + 8 := by rw [hscanner]; rfl
    dsimp only
    omega
  | send hscanner =>
    simp only [hscanner, work, length_append, length_singleton]
    omega
  | checkStop hscanner | checkCancelled hscanner | sendStop hscanner | sendCancelled hscanner =>
    simp only [hscanner, work]
    omega

theorem Next.work_lt (h : Next cfg s s') : s'.work < s.work := by
  cases h with
  | own h => exact h.work_lt
  | pingExit hping => simp [State.work, hping]

/-! ## What is on its way -/

def HandlerPhase.held : HandlerPhase → List String
  | .handling data => [data]
  | _ => []

private theorem held_afterHandle (stopped : Bool) : (afterHandle stopped).held = [] := by
  cases stopped <;> rfl

def State.passed (s : State) : List String := s.delivered ++ (s.handler.held ++ s.dataChan)

theorem delivered_passed (s : State) : s.delivered <+: s.passed := prefix_append _ _

def ScannerPhase.Ahead (lines : List String) : ScannerPhase → Prop
  | .scanning rest => lines = rest
  | .checking line rest => lines = line :: rest
  | .sending data rest => ∃ line, lineKind line = .payload data ∧ lines = line :: rest
  | _ => False

def ScannerPhase.active : ScannerPhase → Bool
  | .scanning _ | .checking _ _ | .sending _ _ => true
  | _ => false

def NoEnd (lines : List String) : Prop := ∀ line ∈ lines, lineKind line ≠ .done

variable {before rest : List String} {data : String}

section

variable (h : NoEnd before)
include h

theorem payloads_append (after : List String) :
    payloads (before ++ after) = payloads before ++ payloads after := by
  induction before with
  | nil => rfl
  | cons line before ih =>
    have hline := h line mem_cons_self
    have hrest := ih fun l hl => h l (mem_cons_of_mem line hl)
    simp only [cons_append, payloads]
    cases hkind : lineKind line with
    | skip => exact hrest
    | payload => simp [hrest]
    | done => exact absurd hkind hline

private theorem payloads_concat_skip (hline : lineKind line = .skip) :
    payloads (before ++ [line]) = payloads before := by
  simp [payloads_append h, payloads, hline]

private theorem payloads_concat_payload (hline : lineKind line = .payload data) :
    payloads (before ++ [line]) = payloads before ++ [data] := by
  simp [payloads_append h, payloads, hline]

theorem NoEnd.concat (hline : lineKind line ≠ .done) : NoEnd (before ++ [line]) := by
  intro l hl
  rcases mem_append.mp hl with hl | hl
  · exact h l hl
  · rw [mem_singleton.mp hl]
    exact hline

end

structure Reading (cfg : Config) (s : State) (before left : List String) : Prop where
  ahead : s.scanner.Ahead left
  lines : cfg.lines = before ++ left
  noEnd : NoEnd before
  passed : s.passed = payloads before

structure Flow (cfg : Config) (s : State) : Prop where
  reading : s.scanner.active = true → ∃ before left, Reading cfg s before left
  within : s.passed <+: payloads cfg.lines

theorem Reading.flow {left : List String} (h : Reading cfg s before left) : Flow cfg s where
  reading _ := ⟨before, left, h⟩
  within := by
    rw [h.passed, h.lines, payloads_append h.noEnd]
    exact prefix_append _ _

private theorem flow_init (cfg : Config) : Flow cfg (init cfg) := by
  have hreading : Reading cfg (init cfg) [] cfg.lines :=
    ⟨rfl, rfl, fun _ h => absurd h not_mem_nil, rfl⟩
  exact hreading.flow

theorem Flow.of_eq (h : Flow cfg s) (hscanner : s'.scanner = s.scanner)
    (hpassed : s'.passed = s.passed) : Flow cfg s' := by
  constructor
  · intro hactive
    rw [hscanner] at hactive
    obtain ⟨before, left, hreading⟩ := h.reading hactive
    refine ⟨before, left, ?_, hreading.lines, hreading.noEnd, ?_⟩
    · rw [hscanner]
      exact hreading.ahead
    · rw [hpassed]
      exact hreading.passed
  · rw [hpassed]
    exact h.within

theorem Flow.of_inactive (h : Flow cfg s) (hscanner : s'.scanner.active = false)
    (hpassed : s'.passed = s.passed) : Flow cfg s' := by
  constructor
  · intro hactive
    rw [hscanner] at hactive
    cases hactive
  · rw [hpassed]
    exact h.within

theorem Reading.afterRead (h : Reading cfg s before (line :: rest)) :
    Flow cfg { s with scanner := afterRead rest (lineKind line) } := by
  cases hkind : lineKind line with
  | skip =>
    have hnext : Reading cfg { s with scanner := .scanning rest } (before ++ [line]) rest := by
      refine ⟨rfl, ?_, h.noEnd.concat (by simp [hkind]), ?_⟩
      · rw [h.lines, append_assoc, singleton_append]
      · rw [payloads_concat_skip h.noEnd hkind]
        exact h.passed
    exact hnext.flow
  | payload data =>
    have hnext : Reading cfg { s with scanner := .sending data rest } before (line :: rest) :=
      { h with ahead := ⟨line, hkind, rfl⟩ }
    exact hnext.flow
  | done => exact h.flow.of_inactive rfl rfl

theorem Reading.send (h : Reading cfg s before (line :: rest))
    (hline : lineKind line = .payload data) :
    Flow cfg { s with scanner := .scanning rest, dataChan := s.dataChan ++ [data] } := by
  have hnext : Reading cfg { s with scanner := .scanning rest, dataChan := s.dataChan ++ [data] }
      (before ++ [line]) rest := by
    refine ⟨rfl, ?_, h.noEnd.concat (by simp [hline]), ?_⟩
    · rw [h.lines, append_assoc, singleton_append]
    · rw [payloads_concat_payload h.noEnd hline, ← h.passed]
      simp [State.passed]
  exact hnext.flow

theorem Step.passed_eq (hstep : Step cfg s s')
    (h : s'.scanner.active = false ∨ s'.scanner = s.scanner) : s'.passed = s.passed := by
  cases hstep with
  | receive hhandler hdata => simp [State.passed, hhandler, hdata, HandlerPhase.held]
  | handle hhandler =>
    simp only [State.passed, held_afterHandle]
    rw [hhandler]
    simp [HandlerPhase.held]
  | drained hhandler | handlerSignal hhandler => simp [State.passed, hhandler, HandlerPhase.held]
  | send hscanner =>
    rw [hscanner] at h
    rcases h with h | h <;> cases h
  | _ => rfl

theorem flow_step (h : Flow cfg s) (hstep : Step cfg s s') : Flow cfg s' := by
  have hpassed := hstep.passed_eq
  cases hstep with
  | @scan line rest hscanner =>
    obtain ⟨before, left, hreading⟩ := h.reading (by rw [hscanner]; rfl)
    have hleft := hreading.ahead
    rw [hscanner] at hleft
    have hnext : Reading cfg { s with scanner := .checking line rest } before left :=
      { hreading with ahead := hleft }
    exact hnext.flow
  | read hscanner =>
    obtain ⟨before, left, hreading⟩ := h.reading (by rw [hscanner]; rfl)
    have hleft := hreading.ahead
    rw [hscanner] at hleft
    cases hleft
    exact hreading.afterRead
  | send hscanner =>
    obtain ⟨before, left, hreading⟩ := h.reading (by rw [hscanner]; rfl)
    have hleft := hreading.ahead
    rw [hscanner] at hleft
    obtain ⟨line, hline, rfl⟩ := hleft
    exact hreading.send hline
  | wake _ _ | cleanup _ _ | pingTake _ _ | receive _ _ | handle _ | drained _ _ _
  | handlerSignal => exact Flow.of_eq h rfl (hpassed (.inr rfl))
  | _ => exact Flow.of_inactive h rfl rfl

theorem Reachable.invariant {inv : State → Prop} (hinit : inv (init cfg))
    (hstep : ∀ s s', Reachable cfg s → inv s → Step cfg s s' → inv s')
    (hping : ∀ s, inv s → inv { s with ping := false }) (h : Reachable cfg s) : inv s := by
  induction h with
  | refl => exact hinit
  | tail hreached hnext ih =>
    cases hnext with
    | own hown => exact hstep _ _ hreached ih hown
    | pingExit => exact hping _ ih

theorem Reachable.flow (h : Reachable cfg s) : Flow cfg s := by
  apply h.invariant (flow_init cfg)
  · intro s s' _ hs hstep
    exact flow_step hs hstep
  · intro s hs
    exact Flow.of_eq hs rfl rfl

theorem Reachable.next (h : Reachable cfg s) (hnext : Next cfg s s') :
    Reachable cfg s' := ReflTransGen.tail h hnext

theorem reaches_of_stuck {inv goal : State → Prop} (hinv : ∀ s s', inv s → Next cfg s s' → inv s')
    (hstuck : ∀ s, inv s → Stuck (Step cfg) s → goal s) (hs : inv s) : Reaches cfg goal s :=
  inevitable_of_measure State.work (fun _ _ hnext => hnext.work_lt) hinv hstuck hs

/-! ## Signals -/

def MainPhase.sent : MainPhase → Nat
  | .cleaned => 1
  | _ => 0

def HandlerPhase.sent : HandlerPhase → Nat
  | .exited => 1
  | _ => 0

def ScannerPhase.sent : ScannerPhase → Nat
  | .exited => 1
  | _ => 0

def HandlerPhase.done : HandlerPhase → Bool
  | .signalling | .exited => true
  | _ => false

def ScannerPhase.shut : ScannerPhase → Bool
  | .signalling | .exited => true
  | _ => false

theorem ScannerPhase.shut_of_active {phase : ScannerPhase} (h : phase.active = true) :
    phase.shut = false := by
  cases phase <;> first | rfl | cases h

private theorem closed_step (h : s.closed = s.scanner.shut) (hstep : Step cfg s s') :
    s'.closed = s'.scanner.shut := by
  cases hstep with
  | @read line rest hscanner =>
    have hopen : s.closed = false := by rw [h, hscanner]; rfl
    dsimp only
    rw [hopen]
    cases lineKind line <;> rfl
  | close => rfl
  | scannerSignal hscanner =>
    rw [hscanner] at h
    exact h
  | scan hscanner | eof hscanner _ | checkStop hscanner _ | checkCancelled hscanner _
  | send hscanner _ | sendStop hscanner _ | sendCancelled hscanner _ =>
    rw [hscanner] at h
    exact h
  | _ => exact h

def HandlerEnds (cfg : Config) (s : State) : Prop :=
  s.handler.done = true → (s.closed = true ∧ s.dataChan = []) ∨
    ∃ k, s.delivered.length = k + 1 ∧ cfg.stops k = true

private theorem handlerEnds_step (hclosed : s.closed = s.scanner.shut) (h : HandlerEnds cfg s)
    (hstep : Step cfg s s') : HandlerEnds cfg s' := by
  cases hstep with
  | receive =>
    intro hdone
    cases hdone
  | handle =>
    intro hdone
    cases hstop : cfg.stops s.delivered.length with
    | true => exact .inr ⟨s.delivered.length, by simp, hstop⟩
    | false =>
      rw [hstop] at hdone
      cases hdone
  | drained hhandler hempty hclosed => exact fun _ => .inl ⟨hclosed, hempty⟩
  | handlerSignal hhandler =>
    intro _
    apply h
    rw [hhandler]
    rfl
  | send hscanner =>
    intro hdone
    rcases h hdone with ⟨hshut, -⟩ | hstopped
    · rw [hclosed, hscanner] at hshut
      cases hshut
    · exact .inr hstopped
  | close =>
    intro hdone
    rcases h hdone with ⟨-, hempty⟩ | hstopped
    · exact .inl ⟨rfl, hempty⟩
    · exact .inr hstopped
  | _ => exact h

theorem sent_afterHandle (stopped : Bool) : (afterHandle stopped).sent = 0 := by
  cases stopped <;> rfl

theorem sent_afterRead (rest : List String) (kind : LineKind) : (afterRead rest kind).sent = 0 := by
  cases kind <;> rfl

/-- Every token was sent by a party that is done, and the main select is left with
the token of the handler or the scanner. -/
structure Tokens (s : State) : Prop where
  sent : s.tokens ≤ s.main.sent + s.handler.sent + s.scanner.sent
  woken : s.main ≠ .waiting → 0 < s.handler.sent + s.scanner.sent

private theorem tokens_step (h : Tokens s) (hstep : Step cfg s s') : Tokens s' := by
  obtain ⟨hsent, hwoken⟩ := h
  cases hstep with
  | wake hmain =>
    simp only [hmain, MainPhase.sent] at hsent
    constructor
    · simp only [MainPhase.sent]
      omega
    · intro _
      dsimp only
      omega
  | cleanup hmain =>
    have hparty := hwoken (by simp [hmain])
    simp only [hmain, MainPhase.sent] at hsent
    constructor
    · simp only [MainPhase.sent]
      omega
    · exact fun _ => hparty
  | pingTake => exact ⟨by dsimp only; omega, hwoken⟩
  | handle hhandler =>
    rw [hhandler] at hsent hwoken
    constructor <;> dsimp only <;> rwa [sent_afterHandle]
  | handlerSignal hhandler =>
    simp only [hhandler, HandlerPhase.sent] at hsent
    constructor <;> simp only [HandlerPhase.sent] <;> omega
  | read hscanner =>
    rw [hscanner] at hsent hwoken
    constructor <;> dsimp only <;> rwa [sent_afterRead]
  | receive hphase _ | drained hphase _ _ | scan hphase | eof hphase _ | checkCancelled hphase _
  | send hphase _ | sendCancelled hphase _ | close hphase =>
    rw [hphase] at hsent hwoken
    exact ⟨hsent, hwoken⟩
  | checkStop hscanner htoken | sendStop hscanner htoken =>
    rw [hscanner] at hsent hwoken
    refine ⟨?_, hwoken⟩
    simp only [sent] at hsent ⊢
    omega
  | scannerSignal hscanner =>
    simp only [hscanner, sent] at hsent
    constructor <;> simp only [sent] <;> omega

structure Signals (cfg : Config) (s : State) : Prop where
  closed_eq : s.closed = s.scanner.shut
  ends : HandlerEnds cfg s
  tokens : Tokens s
  handed : s.delivered <+: payloads cfg.lines

theorem Reachable.signals (h : Reachable cfg s) : Signals cfg s := by
  apply h.invariant
  · refine ⟨rfl, fun hdone => ?_, ⟨Nat.le_refl 0, fun hmain => absurd rfl hmain⟩,
      nil_prefix⟩
    cases hdone
  · intro s s' hreached hs hstep
    exact ⟨closed_step hs.closed_eq hstep, handlerEnds_step hs.closed_eq hs.ends hstep,
      tokens_step hs.tokens hstep,
      (delivered_passed s').trans (flow_step hreached.flow hstep).within⟩
  · intro s hs
    exact ⟨hs.closed_eq, hs.ends, ⟨hs.tokens.sent, hs.tokens.woken⟩, hs.handed⟩

/-! ## Where a run is stuck -/

theorem MainPhase.sent_le (phase : MainPhase) : phase.sent ≤ 1 := by
  cases phase <;> decide

theorem HandlerPhase.sent_le (phase : HandlerPhase) : phase.sent ≤ 1 := by
  cases phase <;> simp [HandlerPhase.sent]

theorem ScannerPhase.sent_le (phase : ScannerPhase) : phase.sent ≤ 1 := by
  cases phase <;> simp [sent]

section

variable {cfg : Config} {s : State}

theorem stuck_main (hsent : Tokens s) (h : Stuck (Step cfg) s) :
    s.main = .cleaned ∨ (s.main = .waiting ∧ s.tokens = 0) := by
  cases hmain : s.main with
  | waiting =>
    right
    refine ⟨rfl, ?_⟩
    by_contra htoken
    exact h _ (.wake hmain (by omega))
  | woken =>
    have htokens := hsent.sent
    have hhandler := s.handler.sent_le
    have hscanner := s.scanner.sent_le
    simp only [hmain, MainPhase.sent] at htokens
    exact absurd (.cleanup hmain (by omega)) (h _)
  | cleaned => exact .inl rfl

/-- The three parties that send have room for one token each. -/
theorem stuck_handler (hsent : Tokens s) (h : Stuck (Step cfg) s) :
    s.handler = .exited ∨ (s.handler = .idle ∧ s.dataChan = [] ∧ s.closed = false) := by
  cases hhandler : s.handler with
  | idle =>
    right
    cases hdata : s.dataChan with
    | cons => exact absurd (.receive hhandler hdata) (h _)
    | nil =>
      refine ⟨rfl, rfl, ?_⟩
      by_contra hclosed
      exact h _ (.drained hhandler hdata (by simpa using hclosed))
  | handling => exact absurd (.handle hhandler) (h _)
  | signalling =>
    have htokens := hsent.sent
    have hmain := s.main.sent_le
    have hscanner := s.scanner.sent_le
    simp only [hhandler, HandlerPhase.sent] at htokens
    exact absurd (.handlerSignal hhandler (by omega)) (h _)
  | exited => exact .inl rfl

theorem stuck_scanner (hsent : Tokens s) (h : Stuck (Step cfg) s) :
    s.scanner = .exited ∨ (s.scanner = .scanning [] ∧ cfg.ends = false) ∨
      (s.scanner.active = true ∧ s.dataChan ≠ []) := by
  cases hscanner : s.scanner with
  | scanning rest =>
    cases rest with
    | cons => exact absurd (.scan hscanner) (h _)
    | nil =>
      right
      left
      refine ⟨rfl, ?_⟩
      by_contra hends
      exact h _ (.eof hscanner (by simpa using hends))
  | checking =>
    by_cases htoken : 0 < s.tokens
    · exact absurd (.checkStop hscanner htoken) (h _)
    by_cases hmain : s.main = .waiting
    · exact absurd (.read hscanner (by omega) hmain) (h _)
    · exact absurd (.checkCancelled hscanner hmain) (h _)
  | sending =>
    right
    right
    refine ⟨rfl, ?_⟩
    intro hempty
    exact h _ (.send hscanner (by simp [hempty]))
  | closing => exact absurd (.close hscanner) (h _)
  | signalling =>
    have htokens := hsent.sent
    have hmain := s.main.sent_le
    have hhandler := s.handler.sent_le
    simp only [hscanner, sent] at htokens
    exact absurd (.scannerSignal hscanner (by omega)) (h _)
  | exited => exact .inl rfl

end

end NewApi.Streams
