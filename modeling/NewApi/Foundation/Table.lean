import Mathlib.Data.List.Count
import Mathlib.Data.List.Sort

/-!
# Keyed tables

A database table as the list of its rows, no two with the same primary key.
Queries read the list, so that filters, orders and limits are the list
functions of the same name; writes keep the keys distinct by construction.
-/

namespace NewApi.Foundation

open List

universe u v

/-!
## Slots

A family of optional records indexed by keys, one of which is overwritten at a
time: the local states of processes, the rows of a table.
-/

variable {α : Type u} {β : Type v} [DecidableEq α] {slots : α → Option β} {a : α}
  {b : β} {P : α → β → Prop}

theorem update_some_eq_some_iff {k : α} {c : β} :
    Function.update slots a (some b) k = some c ↔ k = a ∧ c = b ∨ k ≠ a ∧ slots k = some c := by
  by_cases hk : k = a
  · subst hk
    simp [eq_comm]
  · simp [hk]

theorem forall_update_some (hself : P a b) (hother : ∀ k c, k ≠ a → slots k = some c → P k c) :
    ∀ k c, Function.update slots a (some b) k = some c → P k c := by
  intro k c h
  rcases update_some_eq_some_iff.mp h with ⟨rfl, rfl⟩ | ⟨hne, hold⟩
  · exact hself
  · exact hother k c hne hold

theorem forall_update_none (h : ∀ k c, slots k = some c → P k c) :
    ∀ k c, Function.update slots a none k = some c → P k c := by
  intro k c hk
  by_cases hka : k = a
  · subst hka
    simp at hk
  · exact h k c ((Function.update_of_ne hka ..).symm.trans hk)

section

structure Table (α : Type u) {κ : Type v} (key : α → κ) where
  rows : List α
  nodup : (rows.map key).Nodup

namespace Table

variable {α : Type u} {κ : Type v} {key : α → κ}

theorem eq_of_key_eq (t : Table α key) {a b : α} (ha : a ∈ t.rows) (hb : b ∈ t.rows)
    (h : key a = key b) : a = b := inj_on_of_nodup_map t.nodup ha hb h

def deleteWhere (t : Table α key) (p : α → Bool) : Table α key where
  rows := t.rows.filter fun a => !p a
  nodup := t.nodup.sublist (filter_sublist.map key)

theorem mem_deleteWhere (t : Table α key) {p : α → Bool} {a : α} :
    a ∈ (t.deleteWhere p).rows ↔ a ∈ t.rows ∧ p a = false := by
  simp [deleteWhere]

variable [DecidableEq κ]

def get (t : Table α key) (k : κ) : Option α := t.rows.find? fun a => decide (key a = k)

variable {a b : α} {l : List α}

section

variable (t : Table α key)

theorem get_eq_some_iff {k : κ} : t.get k = some a ↔ a ∈ t.rows ∧ key a = k := by
  constructor
  · intro h
    exact ⟨mem_of_find?_eq_some h, by simpa using find?_some h⟩
  · rintro ⟨hmem, rfl⟩
    cases hget : t.get (key a) with
    | none =>
      have hnone := find?_eq_none.mp hget a hmem
      simp at hnone
    | some b =>
      have hkey : key b = key a := by simpa using find?_some hget
      rw [t.eq_of_key_eq (mem_of_find?_eq_some hget) hmem hkey]

def update (f : α → α) (hf : ∀ a, key (f a) = key a) : Table α key where
  rows := t.rows.map f
  nodup := by
    rw [map_map, show key ∘ f = key from funext hf]
    exact t.nodup

theorem get_update (f : α → α) (hf : ∀ a, key (f a) = key a) (k : κ) :
    (t.update f hf).get k = (t.get k).map f := by
  simp only [get, update, find?_map]
  congr 2
  funext a
  simp [hf]

def save (a : α) : Table α key :=
  t.update (fun b => if key b = key a then a else b) (by
    intro b
    split
    · rename_i h
      exact h.symm
    · rfl)

end

section

variable (t : Table α key)

theorem get_save_self (h : t.get (key a) = some b) : (t.save a).get (key a) = some a := by
  have hkey := ((t.get_eq_some_iff).mp h).2
  simp [save, get_update, h, hkey]

theorem get_save_ne {k : κ} (h : k ≠ key a) : (t.save a).get k = t.get k := by
  rw [save, get_update]
  cases hget : t.get k with
  | none => rfl
  | some =>
    have hkey := ((t.get_eq_some_iff).mp hget).2
    simp [hkey, h]

theorem mem_save (h : b ∈ (t.save a).rows) : b = a ∨ b ∈ t.rows ∧ key b ≠ key a := by
  simp only [save, update, mem_map] at h
  obtain ⟨c, hc, rfl⟩ := h
  split
  · exact .inl rfl
  · rename_i hkey
    exact .inr ⟨hc, hkey⟩

theorem mem_save_iff {c : α} (h : t.get (key a) = some c) :
    b ∈ (t.save a).rows ↔ b = a ∨ b ∈ t.rows ∧ key b ≠ key a := by
  refine ⟨t.mem_save, ?_⟩
  rintro (rfl | ⟨hmem, hkey⟩)
  · exact ((t.save b).get_eq_some_iff.mp (t.get_save_self h)).1
  · have hget : (t.save a).get (key b) = some b := by
      rw [t.get_save_ne hkey]
      exact t.get_eq_some_iff.mpr ⟨hmem, rfl⟩
    exact ((t.save a).get_eq_some_iff.mp hget).1

theorem save_save (h : key a = key b) : (t.save a).save b = t.save b := by
  have hrows : ((t.save a).save b).rows = (t.save b).rows := by
    simp only [save, update, map_map]
    apply map_congr_left
    intro c _
    by_cases hkey : key c = key b <;> simp [hkey, h]
  cases t
  simpa [save, update] using hrows

theorem save_self (h : t.get (key a) = some a) : t.save a = t := by
  obtain ⟨hmem, -⟩ := (t.get_eq_some_iff).mp h
  have hrows : (t.save a).rows = t.rows := by
    refine map_congr_left (g := id) ?_ |>.trans (map_id t.rows)
    intro b hb
    simp only [id]
    split
    · rename_i hkey
      exact t.eq_of_key_eq hmem hb hkey.symm
    · rfl
  cases t
  simpa [save, update] using hrows

theorem filter_save {p : α → Bool} (hp : p a = false) :
    (t.save a).rows.filter p = (t.rows.filter p).filter fun b => decide (key b ≠ key a) := by
  change (t.rows.map fun b => if key b = key a then a else b).filter p = _
  generalize t.rows = rows
  induction rows with
  | nil => rfl
  | cons b rows ih =>
    rw [map_cons, filter_cons, filter_cons, ih]
    by_cases hkey : key b = key a
    · rw [if_pos hkey, if_neg (by simp [hp])]
      split
      · rw [filter_cons, if_neg (by simp [hkey])]
      · rfl
    · rw [if_neg hkey]
      split
      · rw [filter_cons, if_pos (by simp [hkey])]
      · rfl

end

section

variable (t : Table α key)

def insert (a : α) (h : ∀ b ∈ t.rows, key b ≠ key a) : Table α key where
  rows := t.rows ++ [a]
  nodup := by
    rw [map_append, nodup_append]
    refine ⟨t.nodup, by simp, ?_⟩
    intro k hk l hl
    obtain ⟨b, hb, rfl⟩ := mem_map.mp hk
    obtain rfl : l = key a := by simpa using hl
    exact h b hb

def delete (k : κ) : Table α key where
  rows := t.rows.filter fun a => decide (key a ≠ k)
  nodup := t.nodup.sublist (filter_sublist.map key)

/-- Assignment to a map: the row with this key is replaced, or added. -/
def put (a : α) : Table α key := (t.delete (key a)).insert a (by simp [delete])

theorem mem_put : b ∈ (t.put a).rows ↔ b ∈ t.rows ∧ key b ≠ key a ∨ b = a := by
  simp [put, insert, delete]

theorem mem_foldl_put_of_mem (hb : b ∈ t.rows) (h : ∀ a ∈ l, key b ≠ key a) :
    b ∈ (l.foldl put t).rows := by
  induction l generalizing t with
  | nil => exact hb
  | cons a l ih =>
    obtain ⟨hfirst, hrest⟩ := forall_mem_cons.mp h
    exact ih (t.put a) (t.mem_put.mpr (.inl ⟨hb, hfirst⟩)) hrest

theorem mem_foldl_put (h : (l.map key).Nodup) (hb : b ∈ l) : b ∈ (l.foldl put t).rows := by
  induction l generalizing t with
  | nil => cases hb
  | cons a l ih =>
    rw [map_cons, nodup_cons] at h
    obtain rfl | hlater := mem_cons.mp hb
    · refine (t.put b).mem_foldl_put_of_mem (t.mem_put.mpr (.inr rfl)) fun c hc hkey => ?_
      exact h.1 (hkey ▸ mem_map_of_mem hc)
    · exact ih (t.put a) h.2 hlater

/-- `INSERT` with `ON CONFLICT DO NOTHING`. -/
def addMissing (a : α) : Table α key :=
  if h : ∀ b ∈ t.rows, key b ≠ key a then t.insert a h else t

end

section

variable (t : Table α key)

theorem mem_addMissing (h : ∀ c ∈ t.rows, key c = key a → c = a) :
    b ∈ (t.addMissing a).rows ↔ b ∈ t.rows ∨ b = a := by
  unfold addMissing
  split
  · simp [insert]
  next hconflict =>
  push Not at hconflict
  obtain ⟨c, hc, hkey⟩ := hconflict
  obtain rfl := h c hc hkey
  constructor
  · exact .inl
  · rintro (hb | rfl)
    · exact hb
    · exact hc

theorem mem_foldl_addMissing (htable : ∀ a ∈ l, ∀ c ∈ t.rows, key c = key a → c = a)
    (hlist : ∀ a ∈ l, ∀ c ∈ l, key c = key a → c = a) :
    b ∈ (l.foldl addMissing t).rows ↔ b ∈ t.rows ∨ b ∈ l := by
  induction l generalizing t with
  | nil => simp
  | cons a l ih =>
    have hadd (c : α) : c ∈ (t.addMissing a).rows ↔ c ∈ t.rows ∨ c = a :=
      t.mem_addMissing (htable a mem_cons_self)
    rw [foldl_cons, ih]
    · rw [hadd, mem_cons, or_assoc]
    · intro a' ha' c hc hkey
      obtain hold | rfl := (hadd c).mp hc
      · exact htable a' (mem_cons_of_mem a ha') c hold hkey
      · exact hlist a' (mem_cons_of_mem _ ha') c mem_cons_self hkey
    · intro a' ha' c hc
      exact hlist a' (mem_cons_of_mem a ha') c (mem_cons_of_mem a hc)

theorem countP_save (h : t.get (key a) = some b) (p : α → Bool) :
    (t.save a).rows.countP p + (if p b then 1 else 0) =
      t.rows.countP p + (if p a then 1 else 0) := by
  obtain ⟨hmem, hkey⟩ := (t.get_eq_some_iff).mp h
  have hnodup := t.nodup
  change (t.rows.map fun c => if key c = key a then a else c).countP p + _ = _
  generalize t.rows = rows at hmem hnodup
  induction rows with
  | nil => simp at hmem
  | cons c rows ih =>
    rw [map_cons, nodup_cons] at hnodup
    rcases mem_cons.mp hmem with rfl | hrest
    · -- the row is the first one, and no later row has its key
      have hlater : (rows.map fun c => if key c = key a then a else c) = rows := by
        refine map_congr_left (g := id) ?_ |>.trans (map_id rows)
        intro c hc
        have hne : key c ≠ key a := by
          intro heq
          exact hnodup.1 (mem_map.mpr ⟨c, hc, by rw [heq, hkey]⟩)
        simp [hne]
      rw [map_cons, hlater, if_pos hkey, countP_cons, countP_cons]
      omega
    · have hne : key c ≠ key a := by
        intro heq
        exact hnodup.1 (mem_map.mpr ⟨b, hrest, by rw [heq, hkey]⟩)
      have htail := ih hrest hnodup.2
      rw [map_cons, if_neg hne, countP_cons, countP_cons]
      omega

end

end Table

section OrderBy

variable {α : Type u} (r : α → α → Prop) [DecidableRel r]

theorem orderedInsert_of_forall {a : α} {l : List α} (h : ∀ b ∈ l, r a b) :
    l.orderedInsert r a = a :: l := by
  cases l with
  | nil => rfl
  | cons b l => exact orderedInsert_cons_of_le r l (h b mem_cons_self)

theorem filter_orderedInsert [IsTrans α r] (p : α → Bool) (a : α) {l : List α} (hl : l.Pairwise r) :
    (l.orderedInsert r a).filter p =
      if p a = true then (l.filter p).orderedInsert r a else l.filter p := by
  induction l with
  | nil => simp [filter_cons]
  | cons b l ih =>
    obtain ⟨hb, hl⟩ := pairwise_cons.mp hl
    by_cases hab : r a b
    · rw [orderedInsert_cons_of_le r l hab, filter_cons]
      split
      · rw [orderedInsert_of_forall]
        intro c hc
        rcases mem_cons.mp (mem_of_mem_filter hc) with rfl | hlater
        · exact hab
        · exact IsTrans.trans _ _ _ hab (hb c hlater)
      · rfl
    · rw [orderedInsert_of_not_le r l hab, filter_cons, ih hl, filter_cons]
      cases hpb : p b with
      | false => simp
      | true =>
        simp only [if_true]
        split
        · rw [orderedInsert_of_not_le r _ hab]
        · rfl

theorem filter_insertionSort [Std.Total r] [IsTrans α r] (p : α → Bool) (l : List α) :
    (l.insertionSort r).filter p = (l.filter p).insertionSort r := by
  induction l with
  | nil => rfl
  | cons a l ih =>
    rw [insertionSort_cons, filter_orderedInsert r p a (pairwise_insertionSort r l),
      ih, filter_cons]
    split <;> simp

end OrderBy

section LastBy

variable {α : Type u} (r : α → α → Prop) [DecidableRel r]

def lastBy (l : List α) : Option α := (l.insertionSort r).getLast?

theorem lastBy_mem {l : List α} {a : α} (h : lastBy r l = some a) : a ∈ l :=
  (mem_insertionSort r).mp (mem_of_getLast? h)

theorem lastBy_isSome {l : List α} {a : α} (h : a ∈ l) : (lastBy r l).isSome = true := by
  rw [lastBy, getLast?_isSome]
  exact ne_nil_of_mem ((mem_insertionSort r).mpr h)

theorem le_lastBy [Std.Total r] [IsTrans α r] {l : List α} {a b : α}
    (h : lastBy r l = some a) (hb : b ∈ l) : r b a := by
  have hsorted := pairwise_insertionSort r l
  obtain ⟨front, hfront⟩ := getLast?_eq_some_iff.mp h
  rw [hfront] at hsorted
  have hmem : b ∈ front ++ [a] := by
    rw [← hfront]
    exact (mem_insertionSort r).mpr hb
  rcases mem_append.mp hmem with hearlier | hlast
  · exact (pairwise_append.mp hsorted).2.2 b hearlier a (mem_singleton_self a)
  · obtain rfl := mem_singleton.mp hlast
    exact (Std.Total.total b b).elim id id

end LastBy

end

/-!
## Buckets

A map from keys to lists that is filled by appending one entry at a time.  In whatever
order the keys are visited, the buckets hold the entries that were added, each as often
as it was added.
-/

abbrev Buckets (κ : Type u) (β : Type v) := Table (κ × List β) Prod.fst

namespace Buckets

variable {κ : Type u} {β : Type v}

def empty : Buckets κ β := ⟨[], nodup_nil⟩

def entries (rows : List (κ × List β)) : List (κ × β) :=
  rows.flatMap fun row => row.2.map fun b => (row.1, b)

theorem entries_cons (row : κ × List β) (rows : List (κ × List β)) :
    entries (row :: rows) = (row.2.map fun b => (row.1, b)) ++ entries rows := rfl

theorem entries_append (rows others : List (κ × List β)) :
    entries (rows ++ others) = entries rows ++ entries others := flatMap_append

theorem entries_perm {rows others : List (κ × List β)} (h : rows.Perm others) :
    (entries rows).Perm (entries others) := h.flatMap_right _

variable [DecidableEq κ]

section

variable (t : Buckets κ β)

def bucket (k : κ) : List β := ((t.get k).map Prod.snd).getD []

def add (entry : κ × β) : Buckets κ β := t.put (entry.1, bucket t entry.1 ++ [entry.2])

theorem entries_delete (k : κ) :
    (entries t.rows).Perm (entries (t.delete k).rows ++ (bucket t k).map fun b => (k, b)) := by
  obtain ⟨rows, hnodup⟩ := t
  unfold bucket Table.get Table.delete
  dsimp only
  induction rows with
  | nil => exact List.Perm.refl _
  | cons row rows ih =>
    rw [map_cons, nodup_cons] at hnodup
    by_cases hkey : row.1 = k
    · have hrest : rows.filter (fun a => decide (a.1 ≠ k)) = rows := by
        rw [filter_eq_self]
        intro other hother
        apply decide_eq_true
        intro heq
        apply hnodup.1
        rw [hkey, ← heq]
        exact mem_map_of_mem hother
      rw [find?_cons_of_pos (by simpa using hkey),
        filter_cons_of_neg (by simpa using hkey), hrest, entries_cons, hkey]
      exact perm_append_comm
    · rw [find?_cons_of_neg (by simpa using hkey),
        filter_cons_of_pos (by simpa using hkey), entries_cons, entries_cons,
        append_assoc]
      exact (ih hnodup.2).append_left _

theorem entries_add (entry : κ × β) :
    (entries (add t entry).rows).Perm (entries t.rows ++ [entry]) := by
  have hrows : (add t entry).rows =
      (t.delete entry.1).rows ++ [(entry.1, bucket t entry.1 ++ [entry.2])] := rfl
  have hlast : entries [(entry.1, bucket t entry.1 ++ [entry.2])] =
      ((bucket t entry.1).map fun b => (entry.1, b)) ++ [entry] := by
    rw [entries_cons, map_append]
    exact append_nil _
  rw [hrows, entries_append, hlast, ← append_assoc]
  exact (entries_delete t entry.1).symm.append_right _

end

theorem entries_foldl (l : List (κ × β)) (t : Buckets κ β) :
    (entries (l.foldl add t).rows).Perm (entries t.rows ++ l) := by
  induction l generalizing t with
  | nil =>
    rw [append_nil]
    exact List.Perm.refl _
  | cons entry l ih =>
    rw [foldl_cons]
    refine (ih (add t entry)).trans ?_
    have hstep := (entries_add t entry).append_right l
    rwa [append_assoc] at hstep

end Buckets

end NewApi.Foundation
