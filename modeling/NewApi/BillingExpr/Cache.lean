import NewApi.Foundation.Run

/-!
# The cache of compiled billing expressions

`compileFromCacheByHash`, `UsedVars` and `InvalidateCache` of `pkg/billingexpr/compile.go`, cut
where they give up `cacheMu`.  The hash of an expression stands for the expression; `compile` is
`expr.Compile` followed by `extractUsedVars`.
-/

namespace NewApi.BillingExpr

open Foundation List

variable (compile : String → Option (List String))

def maxCacheSize : Nat := 256

abbrev ExprCache := List (String × List String)

def ExprCache.get (cache : ExprCache) (exprStr : String) : Option (List String) :=
  (cache.find? fun entry => entry.1 = exprStr).map (·.2)

def ExprCache.store (cache : ExprCache) (exprStr : String) (vars : List String) : ExprCache :=
  let cache := if maxCacheSize ≤ cache.length then [] else cache
  (exprStr, vars) :: cache.filter fun entry => entry.1 ≠ exprStr

/-- Where a call is: before the first lookup of `UsedVars`, before the lookup of
`compileFromCacheByHash`, before its compilation and write, or before the second lookup of
`UsedVars`. -/
inductive CallPhase where
  | first
  | lookup
  | compile
  | second

structure CacheCall where
  exprStr : String
  usedVars : Bool
  phase : CallPhase

/-- `returned` are the answers of `UsedVars`. -/
structure CacheState where
  cache : ExprCache := []
  calls : Nat → Option CacheCall := fun _ => none
  returned : List (String × Option (List String)) := []

inductive CacheEvent where
  | compileFromCache (i : Nat) (exprStr : String)
  | usedVars (i : Nat) (exprStr : String)
  | advance (i : Nat)
  | invalidateCache

namespace CacheState

section

variable (s : CacheState)

def put (i : Nat) (call : Option CacheCall) : CacheState :=
  { s with calls := Function.update s.calls i call }

def answer (i : Nat) (exprStr : String) (vars : Option (List String)) : CacheState :=
  { s.put i none with returned := s.returned ++ [(exprStr, vars)] }

def compiled (i : Nat) (call : CacheCall) : CacheState :=
  s.put i (if call.usedVars then some { call with phase := .second } else none)

def advance (i : Nat) (call : CacheCall) : CacheState :=
  match call.phase with
  | .first =>
    match s.cache.get call.exprStr with
    | some vars => s.answer i call.exprStr (some vars)
    | none => s.put i (some { call with phase := .lookup })
  | .lookup =>
    if (s.cache.get call.exprStr).isSome then s.compiled i call
    else s.put i (some { call with phase := .compile })
  | .compile =>
    match compile call.exprStr with
    | some vars => { s with cache := s.cache.store call.exprStr vars }.compiled i call
    | none => if call.usedVars then s.answer i call.exprStr none else s.put i none
  | .second => s.answer i call.exprStr (s.cache.get call.exprStr)

def step (e : CacheEvent) : CacheState :=
  match e with
  | .compileFromCache i exprStr =>
    if (s.calls i).isSome then s else s.put i (some ⟨exprStr, false, .lookup⟩)
  | .usedVars i exprStr =>
    if (s.calls i).isSome then s
    else if exprStr = "" then s.answer i exprStr none
    else s.put i (some ⟨exprStr, true, .first⟩)
  | .advance i =>
    match s.calls i with
    | some call => s.advance compile i call
    | none => s
  | .invalidateCache => { s with cache := [] }

/-- A second lookup of `UsedVars` finds the entry that its compilation left. -/
def FindsEntry (e : CacheEvent) : Prop :=
  match e with
  | .advance i => ∀ call ∈ s.calls i, call.phase = .second →
    (s.cache.get call.exprStr).isSome = true
  | _ => True

end

def Owes (exprStr : String) (vars : Option (List String)) : Prop :=
  exprStr ≠ "" → vars = compile exprStr

structure Inv (s : CacheState) : Prop where
  cached : ∀ entry ∈ s.cache, compile entry.1 = some entry.2
  answered : ∀ r ∈ s.returned, Owes compile r.1 r.2

variable {compile} {s : CacheState} {exprStr : String} {vars : List String}

section

variable (h : Inv compile s)
include h

theorem Inv.get (hget : s.cache.get exprStr = some vars) : compile exprStr = some vars := by
  obtain ⟨entry, hfind, rfl⟩ := Option.map_eq_some_iff.mp hget
  have hkey : entry.1 = exprStr := by simpa using find?_some hfind
  exact hkey ▸ h.cached entry (mem_of_find?_eq_some hfind)

theorem Inv.put (i : Nat) (call : Option CacheCall) :
    Inv compile (s.put i call) := ⟨h.cached, h.answered⟩

theorem Inv.answer (i : Nat) {result : Option (List String)} (howes : Owes compile exprStr result) :
    Inv compile (s.answer i exprStr result) where
  cached := h.cached
  answered := by
    intro r hr
    rcases mem_append.mp hr with hold | hnew
    · exact h.answered r hold
    · obtain rfl := mem_singleton.mp hnew
      exact howes

theorem Inv.store (hvars : compile exprStr = some vars) :
    Inv compile { s with cache := s.cache.store exprStr vars } where
  answered := h.answered
  cached := by
    intro entry hentry
    rcases mem_cons.mp hentry with rfl | hold
    · exact hvars
    have hmem := (mem_filter.mp hold).1
    split at hmem
    · cases hmem
    · exact h.cached entry hmem

theorem Inv.advance (i : Nat) (call : CacheCall)
    (hentry : call.phase = .second → (s.cache.get call.exprStr).isSome = true) :
    Inv compile (s.advance compile i call) := by
  unfold CacheState.advance
  split
  · split
    · next hget => exact h.answer i fun _ => (h.get hget).symm
    · exact h.put i _
  · split <;> exact h.put i _
  · split
    · next hvars => exact (h.store hvars).put i _
    next hnone =>
    split
    · exact h.answer i fun _ => hnone.symm
    · exact h.put i none
  · next hphase =>
    obtain ⟨vars, hget⟩ := Option.isSome_iff_exists.mp (hentry hphase)
    exact h.answer i fun _ => hget.trans (h.get hget).symm

theorem Inv.step (e : CacheEvent) (hfinds : FindsEntry s e) : Inv compile (s.step compile e) := by
  unfold CacheState.step
  split
  · split
    · exact h
    · exact h.put _ _
  · split
    · exact h
    split
    · next hempty => exact h.answer _ (absurd hempty)
    · exact h.put _ _
  · split
    · next hcall => exact h.advance _ _ (hfinds _ hcall)
    · exact h
  · exact ⟨forall_mem_nil _, h.answered⟩

end

end CacheState

open CacheState

/-- In every run of the cache whose second lookups find their entry, `UsedVars` answers with the
variables of its expression, and with none only for one that does not compile. -/
theorem usedVars_follow_expr (compile : String → Option (List String)) (events : List CacheEvent)
    (h : Admits (step compile) FindsEntry {} events) :
    ∀ r ∈ (run (step compile) {} events).returned, r.1 ≠ "" → r.2 = compile r.1 := by
  have hall := Admits.invariant (Inv compile) (fun s e hs => hs.step e) ⟨by simp, by simp⟩ h
  exact hall.answered

def oneVariable (exprStr : String) : Option (List String) := some [exprStr]

def coldCall : List CacheEvent := [.usedVars 0 "p", .advance 0, .advance 0, .advance 0]

theorem usedVars_follow_expr_cold :
    ("p", some ["p"]) ∈ (run (step oneVariable) {} (coldCall ++ [.advance 0])).returned ∧
    ∀ r ∈ (run (step oneVariable) {} (coldCall ++ [.advance 0])).returned,
      r.1 ≠ "" → r.2 = oneVariable r.1 := by
  refine ⟨.head _, usedVars_follow_expr oneVariable _ ?_⟩
  simp [coldCall, FindsEntry, step, CacheState.advance, CacheState.put, ExprCache.get,
    CacheState.compiled, ExprCache.store, oneVariable, maxCacheSize]

/-- The cache is invalidated between the compilation and the second lookup. -/
theorem usedVars_follow_expr_counterexample :
    ("p", none) ∈ (run (step oneVariable) {}
      (coldCall ++ [.invalidateCache, .advance 0])).returned ∧ oneVariable "p" = some ["p"] :=
  ⟨.head _, rfl⟩

end NewApi.BillingExpr
