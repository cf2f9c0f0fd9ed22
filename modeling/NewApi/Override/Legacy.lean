import Mathlib.Algebra.Order.BigOperators.Group.List
import Mathlib.Algebra.Order.Ring.Nat
import NewApi.Foundation.Fallible

/-!
# Legacy overrides

`applyOperationsLegacy` of `relay/common/override.go` writes every entry of the
override with `sjson.SetBytes`, whose path is the escaped key.  A path of one
plain part sets the first member of that name or adds one at the end; a colon in
front is taken off.  The last member of a name counts, as in `encoding/json`.
-/

namespace NewApi.Override

open Foundation List

universe u

variable {V : Type u}

/-- An object; a name may be repeated. -/
abbrev Members (V : Type u) := List (String × V)

def lookup : Members V → String → Option V
  | [], _ => none
  | m :: rest, name => (lookup rest name).or (if m.1 = name then some m.2 else none)

def setMember (name : String) (value : V) : Members V → Members V
  | [] => [(name, value)]
  | m :: rest =>
    if m.1 = name then (name, value) :: rest else m :: setMember name value rest

/-- The part that a path without unescaped special characters is. -/
def pathPart : List Char → Option (List Char)
  | [] => some []
  | ['\\'] => some []
  | '\\' :: c :: rest => (pathPart rest).map (c :: ·)
  | c :: rest =>
    if c ∈ ['.', '|', '#', '@', '*', '?'] then none
    else (pathPart rest).map (c :: ·)

def unforced : List Char → List Char
  | ':' :: path => path
  | path => path

/-- What `sjson` makes of any other path.  A query changes what it finds and
adds no member. -/
structure Sjson (V : Type u) where
  query : Members V → String → V → Except String (Members V)
  names : ∀ fields path value result, query fields path value = .ok result →
    result.map Prod.fst = fields.map Prod.fst

def setBytes (sjson : Sjson V) (fields : Members V) (path : String) (value : V) :
    Except String (Members V) :=
  if path = "" then .error "path cannot be empty"
  else
    match pathPart (unforced path.toList) with
    | some part => .ok (setMember (String.ofList part) value fields)
    | none => sjson.query fields path value

def escapeChars : List Char → List Char
  | [] => []
  | c :: rest =>
    if c ∈ ['.', '*', '?', '\\'] then '\\' :: c :: escapeChars rest
    else c :: escapeChars rest

def escapeSjsonLiteralKey (key : String) : String :=
  String.ofList (escapeChars key.toList)

def setLegacy (sjson : Sjson V) (fields : Members V) (entry : String × V) :
    Except String (Members V) :=
  setBytes sjson fields (escapeSjsonLiteralKey entry.1) entry.2

/-- The entries come in the order in which the map is visited. -/
def applyOperationsLegacy (sjson : Sjson V) (fields paramOverride : Members V) :
    Except String (Members V) := paramOverride.foldlM (setLegacy sjson) fields

/-- As a JSON value, the result is the body with every entry assigned. -/
def Assigned (sjson : Sjson V) (fields paramOverride : Members V) : Prop :=
  ∃ result, applyOperationsLegacy sjson fields paramOverride = .ok result ∧
    ∀ name, lookup result name = (lookup paramOverride name).or (lookup fields name)

def Plain (chars : List Char) : Prop := ∀ c ∈ chars, c ∉ ['|', '#', '@']

instance (chars : List Char) : Decidable (Plain chars) :=
  decidableBAll (fun c => c ∉ ['|', '#', '@']) chars

private theorem plain_cons {c : Char} {chars : List Char} :
    Plain (c :: chars) ↔ c ∉ ['|', '#', '@'] ∧ Plain chars := forall_mem_cons

/-- No character that `escapeSjsonLiteralKey` leaves to `sjson`. -/
abbrev LiteralKey (key : String) : Prop := key.toList.head? ≠ some ':' ∧ Plain key.toList

private theorem pathPart_escapeChars (chars : List Char) :
    pathPart (escapeChars chars) = if Plain chars then some chars else none := by
  induction chars with
  | nil => rfl
  | cons c chars ih =>
    simp only [plain_cons]
    by_cases hc : c ∈ ['.', '*', '?', '\\']
    · have hplain : c ∉ ['|', '#', '@'] := by
        simp only [mem_cons, not_mem_nil, or_false] at hc
        rcases hc with rfl | rfl | rfl | rfl <;> decide
      rw [escapeChars, if_pos hc, pathPart, ih]
      split <;> simp_all
    · rw [escapeChars, if_neg hc]
      simp only [mem_cons, not_mem_nil, or_false, not_or] at hc
      rw [pathPart, ih]
      · by_cases hplain : c ∈ ['|', '#', '@']
        · have hspecial : c ∈ ['.', '|', '#', '@', '*', '?'] := by
            simp only [mem_cons, not_mem_nil, or_false] at hplain ⊢
            tauto
          simp [hplain, hspecial]
        · have hordinary : c ∉ ['.', '|', '#', '@', '*', '?'] := by
            simp only [mem_cons, not_mem_nil, or_false] at hplain ⊢
            tauto
          split <;> simp_all
      · simp [hc]
      · simp [hc]

/-- The name that an entry is written under, if its path is no query. -/
def writtenName (key : String) : Option String :=
  if Plain (unforced key.toList) then some (String.ofList (unforced key.toList)) else none

private theorem unforced_escapeChars (chars : List Char) :
    unforced (escapeChars chars) = escapeChars (unforced chars) := by
  cases chars with
  | nil => rfl
  | cons c chars =>
    by_cases hcolon : c = ':'
    · subst hcolon
      rfl
    · have hplain : unforced (c :: chars) = c :: chars := by simp [unforced, hcolon]
      rw [hplain, escapeChars]
      split <;> simp [unforced, hcolon]

theorem setLegacy_eq (sjson : Sjson V) (fields : Members V) {key : String} (value : V)
    (hkey : key ≠ "") :
    setLegacy sjson fields (key, value) =
      match writtenName key with
      | some name => .ok (setMember name value fields)
      | none => sjson.query fields (escapeSjsonLiteralKey key) value := by
  have hpath : escapeSjsonLiteralKey key ≠ "" := by
    obtain ⟨c, chars, hchars⟩ := exists_cons_of_ne_nil (mt String.toList_eq_nil_iff.mp hkey)
    rw [escapeSjsonLiteralKey, hchars, escapeChars]
    split <;> simp [String.ofList_eq_empty_iff]
  dsimp only [setLegacy, setBytes]
  rw [if_neg hpath, escapeSjsonLiteralKey, String.toList_ofList, unforced_escapeChars,
    pathPart_escapeChars, writtenName]
  by_cases hplain : Plain (unforced key.toList)
  · rw [if_pos hplain, if_pos hplain]
  · rw [if_neg hplain, if_neg hplain]

theorem unforced_of_head {chars : List Char} (h : chars.head? ≠ some ':') :
    unforced chars = chars := by
  unfold unforced
  split
  · exact absurd rfl h
  · rfl

theorem LiteralKey.writtenName {key : String} (h : LiteralKey key) :
    writtenName key = some key := by
  rw [Override.writtenName, unforced_of_head h.1, if_pos h.2, String.ofList_toList]

/-- Another key is written under its rest behind a colon. -/
private theorem length_of_writtenName {key name : String} (h : ¬ LiteralKey key)
    (hname : writtenName key = some name) : name.length < key.length := by
  obtain ⟨hplain, hwritten⟩ := Option.ite_none_right_eq_some.mp hname
  have hcolon : key.toList.head? = some ':' := by
    by_contra hhead
    rw [unforced_of_head hhead] at hplain
    exact h ⟨hhead, hplain⟩
  obtain ⟨rest, hrest⟩ := head?_eq_some_iff.mp hcolon
  rw [← Option.some.inj hwritten, hrest, ← String.length_toList, ← String.length_toList,
    String.toList_ofList, hrest]
  exact Nat.lt_succ_self _

private theorem mem_names_setMember {name other : String} {value : V} {fields : Members V} :
    other ∈ (setMember name value fields).map Prod.fst ↔
      other = name ∨ other ∈ fields.map Prod.fst := by
  induction fields with
  | nil => simp [setMember]
  | cons m fields ih =>
    unfold setMember
    split
    · next hname => simp [hname]
    · rw [map_cons, mem_cons, ih, map_cons, mem_cons, or_left_comm]

theorem lookup_of_not_mem {name : String} {fields : Members V}
    (h : name ∉ fields.map Prod.fst) : lookup fields name = none := by
  induction fields with
  | nil => rfl
  | cons m fields ih =>
    obtain ⟨hhead, hrest⟩ := not_or.mp (mem_cons.not.mp h)
    rw [lookup, ih hrest, if_neg (Ne.symm hhead)]
    rfl

theorem lookup_of_mem {name : String} {fields : Members V}
    (h : name ∈ fields.map Prod.fst) : lookup fields name ≠ none := by
  induction fields with
  | nil => cases h
  | cons m fields ih =>
    intro hnone
    obtain ⟨hrest, hhead⟩ := Option.or_eq_none_iff.mp hnone
    rcases mem_cons.mp h with hname | hmem
    · rw [if_pos hname.symm] at hhead
      cases hhead
    · exact ih hmem hrest

private theorem lookup_setMember {name other : String} {value : V} {fields : Members V} :
    lookup (setMember name value fields) other =
      if other = name ∧ (fields.map Prod.fst).count name ≤ 1 then some value
      else lookup fields other := by
  induction fields with
  | nil => simp [setMember, lookup, eq_comm]
  | cons m fields ih =>
    unfold setMember
    by_cases hname : m.1 = name
    · have hone : (((m :: fields).map Prod.fst).count name ≤ 1) ↔
          name ∉ fields.map Prod.fst := by
        rw [map_cons, hname, count_cons_self, Nat.succ_le_succ_iff, Nat.le_zero,
          count_eq_zero]
      rw [if_pos hname, lookup]
      simp only [hone, lookup, hname]
      by_cases hother : other = name
      · by_cases hrest : name ∈ fields.map Prod.fst
        · obtain ⟨found, hfound⟩ := Option.ne_none_iff_exists'.mp (lookup_of_mem hrest)
          simp [hother, hrest, hfound]
        · simp [hother, hrest, lookup_of_not_mem hrest]
      · simp [hother, Ne.symm hother]
    · rw [if_neg hname, lookup, ih, map_cons, count_cons_of_ne hname, lookup]
      by_cases hother : other = name
      · by_cases hrest : (fields.map Prod.fst).count name ≤ 1
        · simp [hother, hrest]
        · simp [hother, hrest]
      · simp [hother]

private theorem count_setMember {name other : String} {value : V} {fields : Members V}
    (hother : other ≠ name) :
    ((setMember name value fields).map Prod.fst).count other =
      (fields.map Prod.fst).count other := by
  induction fields with
  | nil => simp [setMember, hother.symm]
  | cons m fields ih =>
    unfold setMember
    split
    · next hname => simp [hname]
    · rw [map_cons, count_cons, ih, map_cons, count_cons]

theorem mem_of_lookup {name : String} {fields : Members V} (h : lookup fields name ≠ none) :
    name ∈ fields.map Prod.fst := by
  by_contra hmem
  exact h (lookup_of_not_mem hmem)

section

variable {sjson : Sjson V} {fields result paramOverride : Members V}

private theorem names_setLegacy {entry : String × V} (hkey : entry.1 ≠ "")
    (h : setLegacy sjson fields entry = .ok result) {name : String}
    (hname : name ∈ result.map Prod.fst) :
    writtenName entry.1 = some name ∨ name ∈ fields.map Prod.fst := by
  rw [setLegacy_eq sjson fields entry.2 hkey] at h
  split at h
  · next written hwritten =>
    cases h
    rcases mem_names_setMember.mp hname with rfl | hmem
    · exact .inl hwritten
    · exact .inr hmem
  · rw [sjson.names _ _ _ _ h] at hname
    exact .inr hname

/-- A name of the result is of the body or an entry is written under it. -/
private theorem names_applyOperationsLegacy (hkeys : ∀ e ∈ paramOverride, e.1 ≠ "")
    (h : applyOperationsLegacy sjson fields paramOverride = .ok result) {name : String}
    (hname : name ∈ result.map Prod.fst) :
    (∃ e ∈ paramOverride, writtenName e.1 = some name) ∨ name ∈ fields.map Prod.fst := by
  unfold applyOperationsLegacy at h
  induction paramOverride generalizing fields with
  | nil =>
    cases h
    exact .inr hname
  | cons e rest ih =>
    rw [foldlM_cons] at h
    obtain ⟨next, hnext, hrest⟩ := bind_eq_ok.mp h
    rcases ih (fun d hd => hkeys d (mem_cons_of_mem e hd)) hrest with ⟨d, hd, hwritten⟩ | hmem
    · exact .inl ⟨d, mem_cons_of_mem e hd, hwritten⟩
    · exact (names_setLegacy (hkeys e mem_cons_self) hnext hmem).imp_left
        fun hwritten => ⟨e, mem_cons_self, hwritten⟩

/-- With literal keys an entry counts unless the body repeats its name. -/
private theorem lookup_applyOperationsLegacy (sjson : Sjson V) (fields : Members V)
    (hnodup : (paramOverride.map Prod.fst).Nodup)
    (hkeys : ∀ e ∈ paramOverride, e.1 ≠ "") (hliteral : ∀ e ∈ paramOverride, LiteralKey e.1) :
    ∃ result, applyOperationsLegacy sjson fields paramOverride = .ok result ∧
      ∀ name, lookup result name =
        if (fields.map Prod.fst).count name ≤ 1 then
          (lookup paramOverride name).or (lookup fields name)
        else lookup fields name := by
  unfold applyOperationsLegacy
  induction paramOverride generalizing fields with
  | nil => exact ⟨fields, rfl, fun _ => (ite_self _).symm⟩
  | cons e rest ih =>
    obtain ⟨hfresh, hnodup⟩ := nodup_cons.mp hnodup
    obtain ⟨hkey, hkeys⟩ := forall_mem_cons.mp hkeys
    obtain ⟨hhead, hliteral⟩ := forall_mem_cons.mp hliteral
    obtain ⟨result, hresult, hlookup⟩ :=
      ih (setMember e.1 e.2 fields) hnodup hkeys hliteral
    refine ⟨result, ?_, fun name => ?_⟩
    · rw [foldlM_cons, setLegacy_eq sjson fields e.2 hkey, hhead.writtenName]
      exact hresult
    · rw [hlookup, lookup_setMember, lookup]
      by_cases hname : name = e.1
      · subst hname
        simp [lookup_of_not_mem hfresh]
      · rw [count_setMember hname]
        simp [hname, Ne.symm hname]

theorem lookup_of_nodup (hnodup : (fields.map Prod.fst).Nodup) {e : String × V}
    (he : e ∈ fields) : lookup fields e.1 = some e.2 := by
  induction fields with
  | nil => cases he
  | cons m fields ih =>
    obtain ⟨hfresh, hnodup⟩ := nodup_cons.mp hnodup
    rcases mem_cons.mp he with rfl | hmem
    · simp [lookup, lookup_of_not_mem hfresh]
    · simp [lookup, ih hnodup hmem]

/-- A body that repeats a name keeps its last member, which the entry may equal. -/
theorem assigned_iff_of_literal (hnodup : (paramOverride.map Prod.fst).Nodup)
    (hkeys : ∀ e ∈ paramOverride, e.1 ≠ "") (hliteral : ∀ e ∈ paramOverride, LiteralKey e.1) :
    Assigned sjson fields paramOverride ↔
      ∀ e ∈ paramOverride,
        (fields.map Prod.fst).count e.1 ≤ 1 ∨ lookup fields e.1 = some e.2 := by
  obtain ⟨result, hresult, hlookup⟩ :=
    lookup_applyOperationsLegacy sjson fields hnodup hkeys hliteral
  have hassigned : Assigned sjson fields paramOverride ↔
      ∀ name, lookup result name = (lookup paramOverride name).or (lookup fields name) := by
    simp [Assigned, hresult]
  rw [hassigned]
  constructor
  · intro h e he
    refine or_iff_not_imp_left.mpr fun hrepeated => ?_
    have hkept := h e.1
    rwa [hlookup, if_neg hrepeated, lookup_of_nodup hnodup he, Option.some_or] at hkept
  · intro h name
    rw [hlookup]
    split
    · rfl
    · next hrepeated =>
      by_cases hname : name ∈ paramOverride.map Prod.fst
      · obtain ⟨e, he, rfl⟩ := mem_map.mp hname
        rw [lookup_of_nodup hnodup he, (h e he).resolve_left hrepeated]
        rfl
      · rw [lookup_of_not_mem hname]
        rfl

/-- Over the empty object, an entry whose key is not literal is found only if a
longer key of that kind is there to write its name. -/
private theorem longer_key_of_assigned (hkeys : ∀ e ∈ paramOverride, e.1 ≠ "")
    (h : Assigned sjson [] paramOverride) {e : String × V} (he : e ∈ paramOverride)
    (hliteral : ¬ LiteralKey e.1) :
    ∃ d ∈ paramOverride, ¬ LiteralKey d.1 ∧ e.1.length < d.1.length := by
  obtain ⟨result, hresult, hlookup⟩ := h
  have hfound : lookup result e.1 ≠ none := by
    rw [hlookup, lookup, Option.or_none]
    exact lookup_of_mem (mem_map_of_mem he)
  obtain ⟨d, hd, hwritten⟩ | hnone :=
    names_applyOperationsLegacy hkeys hresult (mem_of_lookup hfound)
  · have hnot : ¬ LiteralKey d.1 := fun hd =>
      hliteral (Option.some.inj (hd.writtenName.symm.trans hwritten) ▸ hd)
    exact ⟨d, hd, hnot, length_of_writtenName hnot hwritten⟩
  · cases hnone

private theorem literal_of_assigned (hkeys : ∀ e ∈ paramOverride, e.1 ≠ "")
    (h : Assigned sjson [] paramOverride) : ∀ e ∈ paramOverride, LiteralKey e.1 := by
  intro e he
  by_contra hliteral
  -- Keys that are not literal would grow without end.
  have hgrows : ∀ n, ∃ d ∈ paramOverride, ¬ LiteralKey d.1 ∧ n ≤ d.1.length := by
    intro n
    induction n with
    | zero => exact ⟨e, he, hliteral, Nat.zero_le _⟩
    | succ n ih =>
      obtain ⟨d, hd, hnot, hn⟩ := ih
      obtain ⟨longer, hlonger, hnot, hlt⟩ := longer_key_of_assigned hkeys h hd hnot
      exact ⟨longer, hlonger, hnot, Nat.lt_of_le_of_lt hn hlt⟩
  obtain ⟨d, hd, -, hn⟩ := hgrows ((paramOverride.map (·.1.length)).sum + 1)
  have hle := single_le_sum (fun _ _ => Nat.zero_le _) _
    (mem_map_of_mem (f := (·.1.length)) hd)
  omega

end

/-- An override of distinct keys assigns every entry over each body that repeats
none of its names if and only if no key starts with a colon or has a pipe, a hash
or an at sign in it.  Such an override assigns over a body with a repeated name
if and only if the entry is the last member already. -/
theorem legacy_assigns_iff (sjson : Sjson V) (paramOverride : Members V)
    (hnodup : (paramOverride.map Prod.fst).Nodup)
    (hkeys : ∀ e ∈ paramOverride, e.1 ≠ "") :
    ((∀ fields : Members V,
        (∀ e ∈ paramOverride, (fields.map Prod.fst).count e.1 ≤ 1) →
        Assigned sjson fields paramOverride) ↔
      ∀ e ∈ paramOverride, LiteralKey e.1) ∧
    ((∀ e ∈ paramOverride, LiteralKey e.1) → ∀ fields : Members V,
      (Assigned sjson fields paramOverride ↔
        ∀ e ∈ paramOverride,
          (fields.map Prod.fst).count e.1 ≤ 1 ∨ lookup fields e.1 = some e.2)) := by
  refine ⟨⟨fun h => literal_of_assigned hkeys (h [] (by simp)), fun h fields honce => ?_⟩,
    fun h _ => assigned_iff_of_literal hnodup hkeys h⟩
  exact (assigned_iff_of_literal hnodup hkeys h).mpr fun e he => .inl (honce e he)

/-- No query finds anything. -/
def noQuery : Sjson Nat := ⟨fun fields _ _ => .ok fields, by
  rintro _ _ _ _ ⟨⟩
  rfl⟩

theorem legacy_assigns_dotted :
    Assigned noQuery [("model", 1), ("a.b", 2), ("model", 3), ("top", 4)]
      [("a.b", 7), ("model", 3), ("n?", 8)] ∧
    ¬ Assigned noQuery [("model", 1), ("a.b", 2), ("model", 3)] [("model", 9)] :=
  ⟨((legacy_assigns_iff noQuery [("a.b", 7), ("model", 3), ("n?", 8)] (by decide)
      (by decide)).2 (by decide) _).mpr (by decide),
    mt ((legacy_assigns_iff noQuery [("model", 9)] (by decide) (by decide)).2
      (by decide) _).mp (by decide)⟩

theorem legacy_colon_lost :
    (∃ result, applyOperationsLegacy noQuery [] [(":a", 1)] = .ok result ∧
      result = [("a", 1)] ∧ lookup result ":a" = none) ∧
    ∃ result, applyOperationsLegacy noQuery [("a", 1), ("a", 2)] [("a", 9)] = .ok result ∧
      result = [("a", 9), ("a", 2)] ∧ lookup result "a" = some 2 :=
  ⟨⟨_, rfl, by decide, by decide⟩, _, rfl, by decide, by decide⟩

end NewApi.Override
