import Mathlib.Data.List.DropRight
import Mathlib.Data.List.Infix
import Mathlib.Data.String.Basic

/-!
# Functions of `strings`

White space as `unicode.IsSpace` defines it, the string left after it is
removed from both ends, tests of the two ends, and joined strings.
-/

namespace NewApi.Foundation

open List

universe u

section

section

def isSpace (c : Char) : Bool :=
  let n := c.toNat
  (9 ≤ n && n ≤ 13) || n == 32 || n == 0x85 || n == 0xA0 || n == 0x1680 ||
    (0x2000 ≤ n && n ≤ 0x200A) || n == 0x2028 || n == 0x2029 || n == 0x202F ||
    n == 0x205F || n == 0x3000

def trimSpace (s : String) : String :=
  String.ofList ((s.toList.dropWhile isSpace).rdropWhile isSpace)

def hasPrefix (s start : String) : Bool := start.toList.isPrefixOf s.toList

def hasSuffix (s ending : String) : Bool := ending.toList.isSuffixOf s.toList

def trimChar (c : Char) (s : String) : String :=
  String.ofList ((s.toList.dropWhile (· == c)).rdropWhile (· == c))

def joinWith (sep : String) : List String → String
  | [] => ""
  | [s] => s
  | s :: texts => s ++ sep ++ joinWith sep texts

def split (c : Char) (s : String) : List String := (s.toList.splitOn c).map String.ofList

theorem joinWith_cons_cons (sep s t : String) (texts : List String) :
    joinWith sep (s :: t :: texts) = s ++ sep ++ joinWith sep (t :: texts) := rfl

theorem dropWhile_rdropWhile {α : Type} (p : α → Bool) (l : List α)
    (h : l.dropWhile p = l) : (l.rdropWhile p).dropWhile p = l.rdropWhile p := by
  rw [dropWhile_eq_self_iff] at h ⊢
  intro hpos
  have hstarts := rdropWhile_prefix p (l := l)
  rw [hstarts.getElem hpos]
  exact h (hpos.trans_le hstarts.length_le)

theorem trimSpace_idem (s : String) : trimSpace (trimSpace s) = trimSpace s := by
  unfold trimSpace
  rw [String.toList_ofList, dropWhile_rdropWhile isSpace _ (dropWhile_idempotent ..),
    rdropWhile_idempotent]

structure Edged (l : List Char) : Prop where
  start : ∃ c rest, l = c :: rest ∧ isSpace c = false
  finish : ∃ rest c, l = rest ++ [c] ∧ isSpace c = false

theorem Edged.append {first second : List Char} (hfirst : Edged first) (hsecond : Edged second)
    (middle : List Char) : Edged (first ++ (middle ++ second)) := by
  obtain ⟨c, rest, rfl, hc⟩ := hfirst.start
  obtain ⟨rest', c', rfl, hc'⟩ := hsecond.finish
  refine ⟨⟨c, _, rfl, hc⟩, (c :: rest) ++ (middle ++ rest'), c', ?_, hc'⟩
  simp

variable {blank l rest : List Char} {s start : String} {c : Char}

theorem dropWhile_blank (hblank : ∀ c ∈ blank, isSpace c = true) (hl : Edged l) (tail : List Char) :
    (blank ++ (l ++ tail)).dropWhile isSpace = l ++ tail := by
  obtain ⟨c, rest, rfl, hc⟩ := hl.start
  rw [dropWhile_append_of_pos hblank]
  simp [hc]

theorem rdropWhile_blank (hblank : ∀ c ∈ blank, isSpace c = true) (hl : Edged l) :
    (l ++ blank).rdropWhile isSpace = l := by
  obtain ⟨rest, c, rfl, hc⟩ := hl.finish
  unfold List.rdropWhile
  rw [reverse_append, dropWhile_append_of_pos (by simpa using hblank)]
  simp [hc]

theorem trimSpace_eq {before middle after : List Char} (hs : s.toList = before ++ (middle ++ after))
    (hbefore : ∀ c ∈ before, isSpace c = true) (hafter : ∀ c ∈ after, isSpace c = true)
    (hmiddle : Edged middle) : trimSpace s = String.ofList middle := by
  rw [trimSpace, hs, dropWhile_blank hbefore hmiddle, rdropWhile_blank hafter hmiddle]

theorem exists_trimSpace (s : String) : ∃ before after : List Char,
    s.toList = before ++ ((trimSpace s).toList ++ after) ∧
      (∀ c ∈ before, isSpace c = true) ∧ ∀ c ∈ after, isSpace c = true := by
  refine ⟨s.toList.takeWhile isSpace, (s.toList.dropWhile isSpace).rtakeWhile isSpace, ?_,
    fun c hc => mem_takeWhile_imp hc, fun c hc => mem_rtakeWhile_imp hc⟩
  rw [trimSpace, String.toList_ofList, rdropWhile_append_rtakeWhile, takeWhile_append_dropWhile]

theorem hasPrefix_iff : hasPrefix s start = true ↔ ∃ rest, s.toList = start.toList ++ rest := by
  rw [hasPrefix, isPrefixOf_iff_prefix]
  constructor
  · rintro ⟨rest, h⟩
    exact ⟨rest, h.symm⟩
  · rintro ⟨rest, h⟩
    exact ⟨rest, h.symm⟩

theorem utf8ByteSize_of_hasPrefix (h : s.toList = start.toList ++ rest) :
    s.utf8ByteSize = start.utf8ByteSize + (String.ofList rest).utf8ByteSize := by
  have hs : s = start ++ String.ofList rest := by
    rw [← String.ofList_toList (s := s), h, String.ofList_append, String.ofList_toList]
  rw [hs, String.utf8ByteSize_append]

theorem edged_trimSpace (h : trimSpace s ≠ "") : Edged (trimSpace s).toList := by
  have hne : (trimSpace s).toList ≠ [] := fun hnil => h (String.toList_eq_nil_iff.mp hnil)
  unfold trimSpace at hne ⊢
  rw [String.toList_ofList] at hne ⊢
  refine ⟨?_, _, _, (dropLast_append_getLast hne).symm, ?_⟩
  · have hsame := dropWhile_rdropWhile isSpace _ (dropWhile_idempotent isSpace s.toList)
    obtain ⟨c, rest, hl⟩ := exists_cons_of_ne_nil hne
    refine ⟨c, rest, hl, ?_⟩
    rw [hl, dropWhile_eq_self_iff] at hsame
    exact Bool.eq_false_iff.mpr (hsame (by simp))
  · simpa using rdropWhile_last_not isSpace _ hne

theorem exists_trimChar (c : Char) (s : String) : ∃ before after : List Char,
    s.toList = before ++ ((trimChar c s).toList ++ after) ∧
      (∀ a ∈ before, a = c) ∧ ∀ a ∈ after, a = c := by
  refine ⟨s.toList.takeWhile (· == c), (s.toList.dropWhile (· == c)).rtakeWhile (· == c), ?_,
    fun a ha => by simpa using mem_takeWhile_imp ha,
    fun a ha => by simpa using mem_rtakeWhile_imp ha⟩
  rw [trimChar, String.toList_ofList, rdropWhile_append_rtakeWhile, takeWhile_append_dropWhile]

theorem trimChar_eq_self_iff :
    trimChar c s = s ↔ s.toList.head? ≠ some c ∧ s.toList.getLast? ≠ some c := by
  have hleft : s.toList.dropWhile (· == c) = s.toList ↔ s.toList.head? ≠ some c := by
    cases s.toList with
    | nil => simp
    | cons => simp [dropWhile_eq_self_iff]
  have hright : s.toList.rdropWhile (· == c) = s.toList ↔ s.toList.getLast? ≠ some c := by
    cases hl : s.toList.reverse with
    | nil => simp [reverse_eq_nil_iff.mp hl]
    | cons =>
      rw [reverse_eq_cons_iff.mp hl, rdropWhile_eq_self_iff]
      simp
  rw [← hleft, ← hright, ← String.toList_inj, trimChar, String.toList_ofList]
  constructor
  · intro h
    have hdrop : s.toList.dropWhile (· == c) = s.toList := by
      have hle := ( rdropWhile_prefix (· == c) (l := s.toList.dropWhile (· == c))).length_le
      rw [h] at hle
      exact (dropWhile_suffix (· == c)).eq_of_length_le hle
    rw [hdrop] at h
    exact ⟨hdrop, h⟩
  · rintro ⟨hdrop, hrdrop⟩
    rw [hdrop, hrdrop]

theorem length_filter_trimChar {p : Char → Bool} (hp : p c = true) (s : String) :
    ((trimChar c s).toList.filter p).length ≤ (s.toList.filter p).length ∧
      (((trimChar c s).toList.filter p).length = (s.toList.filter p).length →
        trimChar c s = s) := by
  obtain ⟨before, after, hs, hbefore, hafter⟩ := exists_trimChar c s
  have hall : ∀ {l : List Char}, (∀ a ∈ l, a = c) → (l.filter p).length = l.length := by
    intro l hl
    rw [filter_eq_self.mpr fun a ha => (hl a ha) ▸ hp]
  have hlength : (s.toList.filter p).length =
      before.length + (((trimChar c s).toList.filter p).length + after.length) := by
    rw [hs, filter_append, filter_append, length_append, length_append, hall hbefore, hall hafter]
  refine ⟨by omega, fun heq => ?_⟩
  have hb : before = [] := eq_nil_of_length_eq_zero (by omega)
  have ha : after = [] := eq_nil_of_length_eq_zero (by omega)
  rw [hb, ha, nil_append, append_nil] at hs
  exact (String.toList_injective hs).symm

theorem toList_joinWith (sep : String) (texts : List String) :
    (joinWith sep texts).toList = sep.toList.intercalate (texts.map String.toList) := by
  induction texts with
  | nil => rfl
  | cons s texts ih =>
    cases texts with
    | nil => simp [joinWith, List.intercalate]
    | cons =>
      rw [joinWith_cons_cons, String.toList_append, String.toList_append, ih]
      simp [List.intercalate]

theorem split_joinWith {texts : List String} (hne : texts ≠ []) (h : ∀ s ∈ texts, c ∉ s.toList) :
    split c (joinWith (String.ofList [c]) texts) = texts := by
  have hmem : ∀ l ∈ texts.map String.toList, c ∉ l := by
    intro l hl
    obtain ⟨s, hs, rfl⟩ := mem_map.mp hl
    exact h s hs
  rw [split, toList_joinWith, String.toList_ofList,
    splitOn_intercalate c hmem (by simpa using hne), map_map]
  simp [Function.comp_def]

theorem joinWith_split (c : Char) (s : String) : joinWith (String.ofList [c]) (split c s) = s := by
  rw [← String.toList_inj, toList_joinWith, String.toList_ofList, split, map_map]
  simp [Function.comp_def, intercalate_splitOn]

theorem exists_toList_joinWith_cons (sep s : String) (texts : List String) :
    ∃ rest, (joinWith sep (s :: texts)).toList = s.toList ++ rest := by
  cases texts with
  | nil => exact ⟨[], by simp [joinWith]⟩
  | cons t texts =>
    refine ⟨sep.toList ++ (joinWith sep (t :: texts)).toList, ?_⟩
    rw [joinWith_cons_cons, String.toList_append, String.toList_append, append_assoc]

theorem exists_toList_joinWith_concat (sep s : String) (texts : List String) :
    ∃ rest, (joinWith sep (texts ++ [s])).toList = rest ++ s.toList := by
  induction texts with
  | nil => exact ⟨[], rfl⟩
  | cons t texts ih =>
    obtain ⟨rest, hrest⟩ := ih
    cases hcase : texts ++ [s] with
    | nil => simp at hcase
    | cons =>
      rw [hcase] at hrest
      refine ⟨t.toList ++ sep.toList ++ rest, ?_⟩
      rw [cons_append, hcase, joinWith_cons_cons, String.toList_append, String.toList_append, hrest]
      simp

theorem isPrefixOf_singleton {a : Char} {l : List Char} (h : l.head? = some a) :
    List.isPrefixOf [c] l = decide (c = a) := by
  obtain ⟨more, rfl⟩ := head?_eq_some_iff.mp h
  simp [List.isPrefixOf, Bool.beq_eq_decide_eq]

theorem head?_rdropWhile {a : Char} (l : List Char) (ha : isSpace a = false) :
    ((a :: l).rdropWhile isSpace).head? = some a := by
  have hne : (a :: l).rdropWhile isSpace ≠ [] := by
    rw [Ne, rdropWhile_eq_nil_iff]
    exact fun h => by simp [h a mem_cons_self] at ha
  obtain ⟨b, more, hcut⟩ := exists_cons_of_ne_nil hne
  have hstarts := rdropWhile_prefix isSpace (l := a :: l)
  rw [hcut] at hstarts ⊢
  rw [head?_cons, (cons_prefix_cons.mp hstarts).1]

theorem hasPrefix_trimSpace_append {t : String} (c : Char) (hs : trimSpace s ≠ "")
    (hblank : ∀ a ∈ blank, isSpace a = true) (ht : t.toList = blank ++ (s.toList ++ rest)) :
    hasPrefix (trimSpace t) (String.ofList [c]) = hasPrefix (trimSpace s) (String.ofList [c]) := by
  obtain ⟨before, after, hsplit, hbefore, -⟩ := exists_trimSpace s
  obtain ⟨a, more, hstart, ha⟩ := (edged_trimSpace hs).start
  have hdrop : t.toList.dropWhile isSpace = a :: (more ++ (after ++ rest)) := by
    rw [ht, hsplit, hstart]
    simp only [append_assoc, cons_append]
    rw [dropWhile_append_of_pos hblank, dropWhile_append_of_pos hbefore,
      dropWhile_cons_of_neg (by simp [ha])]
  have hhead : (trimSpace t).toList.head? = some a := by
    rw [trimSpace, String.toList_ofList, hdrop, head?_rdropWhile _ ha]
  rw [hasPrefix, hasPrefix, String.toList_ofList, isPrefixOf_singleton hhead,
    isPrefixOf_singleton (by rw [hstart]; rfl)]

end

/-!
## Texts cut at a separator

`strings.Index` and `strings.LastIndex` as the two parts of a text around the
first and the last occurrence of a separator.
-/

variable {α : Type u} [DecidableEq α]

def cut (sep : List α) : List α → Option (List α × List α)
  | [] => none
  | c :: l =>
    if sep <+: c :: l then some ([], (c :: l).drop sep.length)
    else (cut sep l).map fun (before, after) => (c :: before, after)

def cutLast (sep : List α) : List α → Option (List α × List α)
  | [] => none
  | c :: l =>
    match cutLast sep l with
    | some (before, after) => some (c :: before, after)
    | none => if sep <+: c :: l then some ([], (c :: l).drop sep.length) else none

def contains (s part : String) : Bool := (cut part.toList s.toList).isSome

variable {sep l before after : List α}

theorem cut_eq_append (h : cut sep l = some (before, after)) : l = before ++ (sep ++ after) := by
  induction l generalizing before with
  | nil => cases h
  | cons c l ih =>
    rw [cut] at h
    split at h
    · next hstarts =>
      obtain ⟨rfl, rfl⟩ : [] = before ∧ (c :: l).drop sep.length = after := by simpa using h
      obtain ⟨rest, hrest⟩ := hstarts
      rw [← hrest, drop_left, nil_append]
    · obtain ⟨⟨first, rest⟩, hcut, hpair⟩ := Option.map_eq_some_iff.mp h
      obtain ⟨rfl, rfl⟩ : c :: first = before ∧ rest = after := by simpa using hpair
      rw [cons_append, ← ih hcut]

omit [DecidableEq α] in
theorem infix_cons_iff {c : α} (h : ¬ sep <+: c :: l) : sep <:+: c :: l ↔ sep <:+: l := by
  rw [List.infix_cons_iff]
  exact or_iff_right h

theorem not_infix_of_cut (hsep : sep ≠ []) (h : cut sep l = some (before, after)) :
    ¬ sep <:+: before := by
  induction l generalizing before with
  | nil => cases h
  | cons c l ih =>
    rw [cut] at h
    split at h
    · obtain ⟨rfl, -⟩ : [] = before ∧ _ := by simpa using h
      simpa using hsep
    next hstarts =>
    obtain ⟨⟨first, rest⟩, hcut, hpair⟩ := Option.map_eq_some_iff.mp h
    obtain ⟨rfl, rfl⟩ : c :: first = before ∧ rest = after := by simpa using hpair
    have hfirst : ¬ sep <+: c :: first := by
      intro hinner
      refine hstarts (hinner.trans ?_)
      rw [cut_eq_append hcut]
      exact ⟨sep ++ rest, by simp⟩
    rw [infix_cons_iff hfirst]
    exact ih hcut

theorem cutLast_eq_none_iff (hsep : sep ≠ []) : cutLast sep l = none ↔ ¬ sep <:+: l := by
  induction l with
  | nil => simpa [cutLast] using hsep
  | cons c l ih =>
    rw [cutLast]
    cases hcut : cutLast sep l with
    | some =>
      have hin : sep <:+: l := by
        by_contra hnot
        rw [ih.mpr hnot] at hcut
        cases hcut
      simpa using hin.trans (suffix_cons c l).isInfix
    | none =>
      have hnot := ih.mp hcut
      by_cases hstarts : sep <+: c :: l
      · simpa [hstarts] using hstarts.isInfix
      · simpa [hstarts, infix_cons_iff hstarts] using hnot

theorem cutLast_eq_append (h : cutLast sep l = some (before, after)) :
    l = before ++ (sep ++ after) := by
  induction l generalizing before with
  | nil => cases h
  | cons c l ih =>
    rw [cutLast] at h
    split at h
    · next first rest hcut =>
      obtain ⟨rfl, rfl⟩ : c :: first = before ∧ rest = after := by simpa using h
      rw [cons_append, ← ih hcut]
    split at h
    · next hstarts =>
      obtain ⟨rfl, rfl⟩ : [] = before ∧ (c :: l).drop sep.length = after := by simpa using h
      obtain ⟨rest, hrest⟩ := hstarts
      rw [← hrest, drop_left, nil_append]
    · cases h

theorem not_infix_of_cutLast (hsep : sep ≠ []) (h : cutLast sep l = some (before, after)) :
    ¬ sep <:+: after := by
  induction l generalizing before with
  | nil => cases h
  | cons c l ih =>
    rw [cutLast] at h
    split at h
    · next first rest hcut =>
      obtain ⟨-, rfl⟩ : c :: first = before ∧ rest = after := by simpa using h
      exact ih hcut
    next hnone =>
    split at h
    · obtain ⟨-, rfl⟩ : [] = before ∧ (c :: l).drop sep.length = after := by simpa using h
      have hnot := (cutLast_eq_none_iff hsep).mp hnone
      obtain ⟨n, hn⟩ := Nat.exists_eq_succ_of_ne_zero
        (fun hzero => hsep (eq_nil_of_length_eq_zero hzero))
      rw [hn, drop_succ_cons]
      exact fun hin => hnot (hin.trans (drop_suffix n l).isInfix)
    · cases h

end

/-!
## Pieces of a text with newlines between them

A text spells its pieces if it has nothing but these pieces, in order, and
newlines before, between and after them.  A piece of newlines alone cannot be
told from those between the pieces.
-/

def IsNewline (c : Char) : Prop := c = '\n'

instance (c : Char) : Decidable (IsNewline c) := inferInstanceAs (Decidable (c = '\n'))

inductive SpellsChars : List (List Char) → List Char → Prop where
  | nil {gap : List Char} (hgap : ∀ c ∈ gap, IsNewline c) : SpellsChars [] gap
  | cons {gap piece rest : List Char} {pieces : List (List Char)}
      (hgap : ∀ c ∈ gap, IsNewline c) (hrest : SpellsChars pieces rest) :
      SpellsChars (piece :: pieces) (gap ++ (piece ++ rest))

section

variable (pieces : List String)

def Spells (text : String) : Prop := SpellsChars (pieces.map String.toList) text.toList

def inkOf (s : String) : List Char := s.toList.filter fun c => ¬ IsNewline c

def ink : Nat := (pieces.flatMap inkOf).length

def Blank (s : String) : Prop := ∀ c ∈ s.toList, IsNewline c

instance (s : String) : Decidable (Blank s) := List.decidableBAll _ s.toList

theorem blank_iff_inkOf {s : String} : Blank s ↔ inkOf s = [] := by
  simp [Blank, inkOf, filter_eq_nil_iff]

theorem inkOf_append (s t : String) : inkOf (s ++ t) = inkOf s ++ inkOf t := by
  rw [inkOf, String.toList_append, filter_append]
  rfl

@[simp] theorem ink_nil : ink [] = 0 := rfl

@[simp] theorem ink_cons (s : String) (pieces : List String) :
    ink (s :: pieces) = (inkOf s).length + ink pieces := by
  simp [ink]

@[simp] theorem ink_append (first second : List String) :
    ink (first ++ second) = ink first + ink second := by
  simp [ink]

theorem ink_eq_zero_iff {pieces : List String} : ink pieces = 0 ↔ ∀ s ∈ pieces, Blank s := by
  induction pieces with
  | nil => simp
  | cons s pieces ih => simp [ih, blank_iff_inkOf]

def shown : List String := pieces.filter fun s => ¬ Blank s

@[simp] theorem shown_append (first second : List String) :
    shown (first ++ second) = shown first ++ shown second := filter_append ..

theorem ink_shown : ink (shown pieces) = ink pieces := by
  induction pieces with
  | nil => rfl
  | cons s pieces ih =>
    by_cases hblank : Blank s
    · simpa [shown, hblank, blank_iff_inkOf.mp hblank] using ih
    · simpa [shown, hblank] using ih

end

namespace SpellsChars

theorem gap {gap text : List Char} {pieces : List (List Char)} (hgap : ∀ c ∈ gap, IsNewline c)
    (h : SpellsChars pieces text) : SpellsChars pieces (gap ++ text) := by
  cases h with
  | nil hmore =>
    refine .nil fun c hc => ?_
    exact (mem_append.mp hc).elim (hgap c) (hmore c)
  | @cons more piece rest pieces hmore hrest =>
    rw [← append_assoc]
    refine .cons (fun c hc => ?_) hrest
    exact (mem_append.mp hc).elim (hgap c) (hmore c)

theorem append {first second : List (List Char)} {text more : List Char}
    (h : SpellsChars first text) (h' : SpellsChars second more) :
    SpellsChars (first ++ second) (text ++ more) := by
  induction h with
  | nil hgap => exact gap hgap h'
  | @cons blank piece rest pieces hgap _ ih =>
    rw [append_assoc, append_assoc]
    exact .cons hgap ih

theorem filter_eq {pieces : List (List Char)} {text : List Char} (h : SpellsChars pieces text) :
    text.filter (fun c => ¬ IsNewline c) =
      pieces.flatMap fun piece => piece.filter fun c => ¬ IsNewline c := by
  have hnone : ∀ {gap : List Char}, (∀ c ∈ gap, IsNewline c) →
      gap.filter (fun c => ¬ IsNewline c) = [] := by
    intro gap hgap
    simpa [filter_eq_nil_iff] using hgap
  induction h with
  | nil hgap => exact hnone hgap
  | @cons gap piece rest pieces hgap _ ih =>
    rw [filter_append, filter_append, hnone hgap, ih, flatMap_cons, nil_append]

end SpellsChars

namespace Spells

variable {pieces more : List String} {text rest : String}

theorem of_blank (h : Blank text) : Spells [] text := .nil h

theorem single (text : String) : Spells [text] text := by
  have h : SpellsChars [text.toList] ([] ++ (text.toList ++ [])) := .cons (by simp) (.nil (by simp))
  simpa [Spells] using h

theorem append (h : Spells pieces text) (h' : Spells more rest) :
    Spells (pieces ++ more) (text ++ rest) := by
  have hall := SpellsChars.append h h'
  unfold Spells
  rwa [map_append, String.toList_append]

theorem ink_eq (h : Spells pieces text) : (inkOf text).length = ink pieces := by
  have heq := SpellsChars.filter_eq h
  rw [flatMap_map] at heq
  rw [inkOf, heq]
  rfl

theorem shown_single (text : String) : Spells (shown [text]) text := by
  by_cases h : Blank text
  · simpa [shown, h] using of_blank h
  · simpa [shown, h] using single text

theorem empty : Spells [] "" := of_blank (by decide)

theorem newline : Spells [] "\n" := of_blank (by decide)

theorem foldl {σ β : Type*} {step : σ → β → σ} {get : σ → String} {out : β → List String}
    (hstep : ∀ s b pieces, Spells pieces (get s) →
      Spells (pieces ++ shown (out b)) (get (step s b)))
    (inputs : List β) {s : σ} (h : Spells pieces (get s)) :
    Spells (pieces ++ shown (inputs.flatMap out)) (get (inputs.foldl step s)) := by
  induction inputs generalizing s pieces with
  | nil =>
    rw [flatMap_nil, show shown [] = [] from rfl, append_nil]
    exact h
  | cons b inputs ih =>
    have hall := ih (hstep s b pieces h)
    rwa [append_assoc, ← shown_append] at hall

end Spells

end NewApi.Foundation
