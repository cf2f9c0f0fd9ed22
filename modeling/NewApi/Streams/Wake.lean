import NewApi.Streams.Delivery

/-!
# Whether a stopped stream wakes the main select

A token in `stopChan` wakes one receiver only.  The scanner sends another one when
it takes it, the ping goroutine does not.
-/

namespace NewApi.Streams

open Foundation Relation ScannerPhase

/-- `dataHandler` has stopped or the scanner has ended. -/
def Triggered (s : State) : Prop := s.handler.done = true ∨ s.scanner.active = false

def Woken (s : State) : Prop := s.main ≠ .waiting

def Wakes (cfg : Config) : Prop := ∀ s, Reachable cfg s → Triggered s → Reaches cfg Woken s

section

variable {cfg : Config} {s s' : State}

private theorem triggered_step (h : Triggered s) (hstep : Step cfg s s') : Triggered s' := by
  unfold Triggered at h ⊢
  cases hstep with
  | receive hhandler =>
    rw [hhandler] at h
    exact .inr (h.resolve_left (by decide))
  | handle hhandler =>
    rw [hhandler] at h
    exact .inr (h.resolve_left (by simp [HandlerPhase.done]))
  | drained | handlerSignal => exact .inl rfl
  | scan hscanner | read hscanner _ _ | send hscanner _ =>
    rw [hscanner] at h
    exact .inl (h.resolve_right (by simp [active]))
  | wake hmain htoken | cleanup hmain hroom | pingTake hping htoken => exact h
  | _ => exact .inr rfl

private theorem triggered_next (h : Triggered s) (hnext : Next cfg s s') : Triggered s' := by
  cases hnext with
  | own hstep => exact triggered_step h hstep
  | pingExit => exact h

theorem HandlerPhase.sent_pos_iff (phase : HandlerPhase) : 0 < phase.sent ↔ phase = .exited := by
  cases phase <;> simp [HandlerPhase.sent]

theorem ScannerPhase.sent_pos_iff (phase : ScannerPhase) : 0 < phase.sent ↔ phase = .exited := by
  cases phase <;> simp [sent]

def Kept (s : State) : Prop :=
  s.main = .waiting → 0 < s.handler.sent + s.scanner.sent →
    0 < s.tokens ∨ s.scanner = .closing ∨ s.scanner = .signalling

theorem kept_step (hping : s.ping = false) (h : Kept s) (hstep : Step cfg s s') : Kept s' := by
  unfold Kept at h ⊢
  cases hstep with
  | wake hmain htoken | cleanup hmain hroom =>
    intro hwaiting
    cases hwaiting
  | pingTake hrunning =>
    rw [hping] at hrunning
    cases hrunning
  | receive hhandler _ | drained hhandler _ _ =>
    rw [hhandler] at h
    exact h
  | handle hhandler =>
    rw [hhandler] at h
    dsimp only
    rw [sent_afterHandle]
    exact h
  | handlerSignal hhandler hroom | scannerSignal hscanner hroom =>
    intro _ _
    exact .inl (Nat.succ_pos _)
  | scan hscanner | send hscanner _ =>
    rw [hscanner] at h
    intro hmain hsent
    refine .inl ((h hmain hsent).resolve_right ?_)
    simp
  | read hscanner htoken hmain =>
    rw [hscanner] at h
    intro hmain hsent
    dsimp only at hsent
    rw [sent_afterRead] at hsent
    refine .inl ((h hmain hsent).resolve_right ?_)
    simp
  | close => exact fun _ _ => .inr (.inr rfl)
  | _ => exact fun _ _ => .inr (.inl rfl)

theorem Reachable.kept (hping : cfg.ping = false) (h : Reachable cfg s) : Kept s := by
  have hboth : s.ping = false ∧ Kept s := by
    apply h.invariant
    · exact ⟨hping, fun _ hsent => absurd hsent (Nat.lt_irrefl 0)⟩
    · intro s s' _ hs hstep
      refine ⟨?_, kept_step hs.1 hs.2 hstep⟩
      cases hstep <;> first | exact hs.1 | rfl
    · intro s hs
      exact ⟨rfl, hs.2⟩
  exact hboth.2

theorem woken_of_kept (hsignals : Signals cfg s) (htriggered : Triggered s) (hkept : Kept s)
    (hstuck : Stuck (Step cfg) s) : Woken s := by
  rcases stuck_main hsignals.tokens hstuck with hmain | ⟨hmain, htokens⟩
  · simp [Woken, hmain]
  exfalso
  have hnone : ¬ 0 < s.handler.sent + s.scanner.sent := by
    intro hsent
    have hscanner := stuck_scanner hsignals.tokens hstuck
    rcases hkept hmain hsent with h | h | h
    · omega
    · simp [h, active] at hscanner
    · simp [h, active] at hscanner
  have hscanner : s.scanner ≠ .exited := by
    intro hexited
    have hsent := s.scanner.sent_pos_iff.mpr hexited
    omega
  have hactive : s.scanner.active = true := by
    rcases stuck_scanner hsignals.tokens hstuck with h | ⟨h, -⟩ | ⟨h, -⟩
    · exact absurd h hscanner
    · rw [h]
      rfl
    · exact h
  rcases stuck_handler hsignals.tokens hstuck with hexited | ⟨hidle, -, -⟩
  · have hsent := s.handler.sent_pos_iff.mpr hexited
    omega
  · rcases htriggered with hdone | hended
    · rw [hidle] at hdone
      cases hdone
    · rw [hactive] at hended
      cases hended

def State.lost (s : State) : Nat := if s.ping then 0 else 1

def Balance (s : State) : Prop :=
  s.main = .waiting → s.handler.sent + s.scanner.sent ≤ s.tokens + s.lost

theorem balance_step (hstops : cfg.Unstopped) (hsignals : Signals cfg s)
    (h : Balance s) (hstep : Step cfg s s') : Balance s' := by
  unfold Balance at h ⊢
  cases hstep with
  | wake hmain htoken | cleanup hmain hroom =>
    intro hwaiting
    cases hwaiting
  | pingTake hping =>
    intro hmain
    have hle := h hmain
    simp only [State.lost, hping] at hle ⊢
    simp only [if_true, Bool.false_eq_true, if_false] at hle ⊢
    omega
  | handle hhandler =>
    rw [hhandler] at h
    dsimp only
    rw [sent_afterHandle]
    exact h
  | receive hhandler _ | drained hhandler _ _ =>
    rw [hhandler] at h
    exact h
  | handlerSignal hhandler =>
    intro hmain
    have hle := h hmain
    simp only [hhandler, HandlerPhase.sent, State.lost] at hle ⊢
    omega
  | scannerSignal hscanner =>
    intro hmain
    have hle := h hmain
    simp only [hscanner, sent, State.lost] at hle ⊢
    omega
  | read hscanner =>
    rw [hscanner] at h
    dsimp only
    rw [sent_afterRead]
    exact h
  | scan hscanner | eof hscanner _ | send hscanner _ | checkCancelled hscanner _
  | sendCancelled hscanner _ | close hscanner =>
    rw [hscanner] at h
    exact h
  | checkStop hscanner htoken | sendStop hscanner htoken =>
    -- there is no token while the scanner reads
    have hnone := (hsignals.quiet hstops (by rw [hscanner]; rfl)).1
    omega

theorem Reachable.balance (hstops : cfg.Unstopped) (h : Reachable cfg s) :
    Balance s := by
  apply h.invariant
  · exact fun _ => Nat.zero_le _
  · intro s s' hs hbalance hstep
    exact balance_step hstops hs.signals hbalance hstep
  · intro s hbalance hmain
    have hle := hbalance hmain
    simp only [State.lost] at hle ⊢
    split at hle <;> simp <;> omega

private theorem exited_of_closed (hsignals : Signals cfg s) (hclosed : s.closed = true)
    (hstuck : Stuck (Step cfg) s) : s.scanner = .exited := by
  rw [hsignals.closed_eq] at hclosed
  rcases stuck_scanner hsignals.tokens hstuck with h | ⟨h, -⟩ | ⟨h, -⟩
  · exact h
  · rw [h] at hclosed
    cases hclosed
  · rw [shut_of_active h] at hclosed
    cases hclosed

theorem woken_of_balance (hstops : cfg.Unstopped) (hsignals : Signals cfg s)
    (htriggered : Triggered s) (hbalance : Balance s) (hstuck : Stuck (Step cfg) s) : Woken s := by
  rcases stuck_main hsignals.tokens hstuck with hmain | ⟨hmain, htokens⟩
  · simp [Woken, hmain]
  exfalso
  have hlost : s.lost ≤ 1 := by
    unfold State.lost
    split <;> omega
  have hle := hbalance hmain
  rcases stuck_handler hsignals.tokens hstuck with hexited | ⟨hidle, hempty, hopen⟩
  · have hclosed := (hsignals.closed_of_done hstops (by rw [hexited]; rfl)).1
    rw [hexited, exited_of_closed hsignals hclosed hstuck] at hle
    simp only [HandlerPhase.sent, sent] at hle
    omega
  rcases htriggered with hdone | hinactive
  · rw [hidle] at hdone
    cases hdone
  rcases stuck_scanner hsignals.tokens hstuck with h | ⟨h, -⟩ | ⟨-, h⟩
  · rw [hsignals.closed_eq, h] at hopen
    cases hopen
  · rw [h] at hinactive
    cases hinactive
  · exact h hempty

end

/--
A stream that stops wakes the main select in every run if there are no pings, or if
`dataHandler` never stops and the scanner ends: otherwise the ping goroutine can take
the last token.
-/
theorem stopped_stream_wakes (cfg : Config)
    (h : cfg.ping = false ∨ cfg.Unstopped) : Wakes cfg := by
  intro s hs htriggered
  have hinv : ∀ s s', (Reachable cfg s ∧ Triggered s) → Next cfg s s' →
      Reachable cfg s' ∧ Triggered s' := by
    rintro s s' ⟨hs, htriggered⟩ hnext
    exact ⟨hs.next hnext, triggered_next htriggered hnext⟩
  refine reaches_of_stuck hinv ?_ ⟨hs, htriggered⟩
  rintro s ⟨hs, htriggered⟩ hstuck
  rcases h with hping | hstops
  · exact woken_of_kept hs.signals htriggered (hs.kept hping) hstuck
  · exact woken_of_balance hstops hs.signals htriggered (hs.balance hstops) hstuck

def refusedStream (ping : Bool) (more : List String) (ends : Bool) : Config where
  ping := ping
  sent := "data: refused" :: more
  closes := ends
  stops k := k == 0

theorem stopped_stream_wakes_refused :
    Wakes (refusedStream false ["data: more"] true) ∧ Wakes markedStream :=
  ⟨stopped_stream_wakes _ (.inl rfl), stopped_stream_wakes _ (.inr fun _ _ => rfl)⟩

def stoppedAt (rest delivered : List String) : State :=
  { ping := true, scanner := .scanning rest, handler := .exited, tokens := 1,
    delivered := delivered }

def bothTaken (delivered : List String) : State :=
  { ping := false, scanner := .exited, handler := .exited, closed := true,
    delivered := delivered }

def oneTaken (delivered : List String) : State :=
  { ping := false, scanner := .scanning [], handler := .exited, delivered := delivered }

theorem refusedStream_stops {more : List String} {ends : Bool}
    (hlines : (refusedStream true more ends).lines = "data: refused" :: more) :
    Reachable (refusedStream true more ends) (stoppedAt more ["refused"]) := by
  have hread : Next (refusedStream true more ends)
      { ping := true, scanner := .checking "data: refused" more }
      { ping := true, scanner := afterRead more (lineKind "data: refused") } :=
    .own (.read rfl rfl rfl)
  have hline : lineKind "data: refused" = .payload "refused" := by decide
  rw [hline] at hread
  rw [Reachable, init, hlines]
  exact .head (.own (.scan rfl)) (.head hread (.head (.own (.send rfl (Nat.succ_pos 9)))
    (.head (.own (.receive rfl rfl)) (.head (.own (.handle rfl))
      (.single (.own (.handlerSignal rfl (Nat.succ_pos 2))))))))

private theorem starves_of_line (cfg : Config) (line : String) (rest delivered : List String) :
    ReflTransGen (Next cfg) (stoppedAt (line :: rest) delivered) (bothTaken delivered) :=
  .head (.own (.scan rfl)) (.head (.own (.checkStop rfl Nat.one_pos))
    (.head (.own (.close rfl)) (.head (.own (.scannerSignal rfl (Nat.succ_pos 2)))
      (.single (.own (.pingTake rfl Nat.one_pos))))))

theorem not_wakes_of_taken {cfg : Config} {s : State} (h : Reachable cfg s)
    (hmain : s.main = .waiting) (htokens : s.tokens = 0) (hhandler : s.handler = .exited)
    (hscanner : s.scanner = .exited ∨ (s.scanner = .scanning [] ∧ cfg.ends = false)) :
    ¬ Wakes cfg := by
  intro hwakes
  have htriggered : Triggered s := .inl (by rw [hhandler]; rfl)
  refine not_inevitable_of_stuck ?_ (fun hwoken => hwoken hmain) (hwakes s h htriggered)
  intro s' hstep
  cases hstep <;> simp_all

/-- After the stop another line lets the scanner take the token, and the ping
goroutine the one the scanner sends; without another line and without an end of the
upstream the ping goroutine takes the only one. -/
theorem stopped_stream_wakes_counterexample :
    (Reachable (refusedStream true ["data: more"] true) (bothTaken ["refused"]) ∧
      ¬ Wakes (refusedStream true ["data: more"] true)) ∧
    (Reachable (refusedStream true [] false) (oneTaken ["refused"]) ∧
      ¬ Wakes (refusedStream true [] false)) := by
  have hboth : Reachable (refusedStream true ["data: more"] true) (bothTaken ["refused"]) :=
    ReflTransGen.trans (refusedStream_stops (by decide)) (starves_of_line _ _ _ _)
  have hone : Reachable (refusedStream true [] false) (oneTaken ["refused"]) :=
    ReflTransGen.tail (refusedStream_stops (by decide)) (.own (.pingTake rfl Nat.one_pos))
  exact ⟨⟨hboth, not_wakes_of_taken hboth rfl rfl rfl (.inl rfl)⟩,
    hone, not_wakes_of_taken hone rfl rfl rfl (.inr ⟨rfl, rfl⟩)⟩

/-! ## The end of a stream -/

section

variable {cfg : Config} {s : State} (hends : cfg.ends = true) (hsignals : Signals cfg s)
  (hstuck : Stuck (Step cfg) s)

include hends hsignals hstuck

private theorem scanner_exited_of_woken (hwoken : Woken s) : s.scanner = .exited := by
  rcases stuck_scanner hsignals.tokens hstuck with h | ⟨-, hopen⟩ | ⟨hactive, -⟩
  · exact h
  · rw [hends] at hopen
    cases hopen
  · cases hscanner : s.scanner with
    | scanning rest =>
      cases rest with
      | nil => exact absurd (.eof hscanner hends) (hstuck _)
      | cons => exact absurd (.scan hscanner) (hstuck _)
    | checking => exact absurd (.checkCancelled hscanner hwoken) (hstuck _)
    | sending => exact absurd (.sendCancelled hscanner hwoken) (hstuck _)
    | closing | signalling =>
      rw [hscanner] at hactive
      cases hactive
    | exited => rfl

private theorem triggered_of_stuck : Triggered s := by
  rcases stuck_handler hsignals.tokens hstuck with h | ⟨-, hempty, -⟩
  · left
    rw [h]
    rfl
  · rcases stuck_scanner hsignals.tokens hstuck with h | ⟨-, hopen⟩ | ⟨-, hdata⟩
    · right
      rw [h]
      rfl
    · rw [hends] at hopen
      cases hopen
    · exact absurd hempty hdata

end

/-- Once the upstream has ended no goroutine is left behind. -/
theorem stream_parties_end (cfg : Config) (hends : cfg.ends = true)
    (h : cfg.ping = false ∨ cfg.Unstopped) :
    Reaches cfg (fun s => s.main = .cleaned ∧ s.handler = .exited ∧ s.scanner = .exited)
      (init cfg) := by
  have hinv : ∀ s s', Reachable cfg s → Next cfg s s' → Reachable cfg s' :=
    fun _ _ hs hnext => hs.next hnext
  refine reaches_of_stuck hinv ?_ ReflTransGen.refl
  intro s hs hstuck
  have hsignals := hs.signals
  have htriggered := triggered_of_stuck hends hsignals hstuck
  have hwoken : Woken s := by
    rcases h with hping | hstops
    · exact woken_of_kept hsignals htriggered (hs.kept hping) hstuck
    · exact woken_of_balance hstops hsignals htriggered (hs.balance hstops) hstuck
  have hscanner := scanner_exited_of_woken hends hsignals hstuck hwoken
  refine ⟨?_, ?_, hscanner⟩
  · exact (stuck_main hsignals.tokens hstuck).resolve_right fun hmain => hwoken hmain.1
  · refine (stuck_handler hsignals.tokens hstuck).resolve_right fun hidle => ?_
    have hopen := hidle.2.2
    rw [hsignals.closed_eq, hscanner] at hopen
    cases hopen

theorem stream_parties_end_refused :
    Reaches (refusedStream false ["data: more"] true)
      (fun s => s.main = .cleaned ∧ s.handler = .exited ∧ s.scanner = .exited)
      (init (refusedStream false ["data: more"] true)) :=
  stream_parties_end _ rfl (.inl rfl)

/-- The handler is done with the payload at which it stops. -/
def Stopped (cfg : Config) (s : State) : Prop :=
  ∀ k < s.delivered.length, cfg.stops k = true →
    s.delivered.length = k + 1 ∧ s.handler.done = true

theorem Stopped.step {cfg : Config} {s s' : State} (h : Stopped cfg s) (hstep : Step cfg s s') :
    Stopped cfg s' := by
  unfold Stopped at h
  cases hstep with
  | receive hhandler =>
    rw [hhandler] at h
    intro k hk hstop
    cases (h k hk hstop).2
  | handle hhandler =>
    rw [hhandler] at h
    intro k hk hstop
    dsimp only at hk ⊢
    rw [List.length_append, List.length_singleton] at hk ⊢
    rcases Nat.lt_succ_iff_lt_or_eq.mp hk with hlt | rfl
    · cases (h k hlt hstop).2
    · exact ⟨rfl, by rw [hstop]; rfl⟩
  | drained | handlerSignal => exact fun k hk hstop => ⟨(h k hk hstop).1, rfl⟩
  | _ => exact h

/-- Whatever the order of steps, the handler gets the first payloads in order, and none after
the one at which it stops. -/
theorem handled_payloads_bounded (cfg : Config) (s : State) (h : Reachable cfg s) :
    s.delivered <+: payloads cfg.lines ∧
      ∀ k, cfg.stops k = true → s.delivered.length ≤ k + 1 := by
  have hstopped : Stopped cfg s := by
    refine h.invariant ?_ (fun _ _ _ hs hstep => hs.step hstep) fun _ hs => hs
    exact fun k hk => absurd hk (Nat.not_lt_zero k)
  refine ⟨(delivered_passed s).trans h.flow.within, fun k hstop => ?_⟩
  by_contra hmore
  have hlength := (hstopped k (by omega) hstop).1
  omega

theorem handled_payloads_bounded_refused :
    (stoppedAt ["data: more"] ["refused"]).delivered.length ≤ 1 := by
  have hlines : (refusedStream true ["data: more"] true).lines =
      ["data: refused", "data: more"] := by decide
  exact (handled_payloads_bounded _ _ (refusedStream_stops hlines)).2 0 rfl

end NewApi.Streams
