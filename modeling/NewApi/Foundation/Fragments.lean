import Mathlib.Data.List.Basic

/-!
# Entries that arrive in fragments

A receiver keeps one entry for each key.  A fragment with a known key is joined
to its entry, a fragment with a new key opens an entry at the end.  Fragments
of different senders do not disturb each other if their keys differ.
-/

namespace NewApi.Foundation

open List

universe u v w

section

variable {κ : Type u} {α : Type v} {β : Type w}

def keys (entries : List (κ × α)) : List κ := entries.map Prod.fst

@[simp] theorem keys_nil : keys ([] : List (κ × α)) = [] := rfl

@[simp] theorem keys_cons (e : κ × α) (entries : List (κ × α)) :
    keys (e :: entries) = e.1 :: keys entries := rfl

@[simp] theorem keys_append (first second : List (κ × α)) :
    keys (first ++ second) = keys first ++ keys second := map_append

variable [DecidableEq κ] (op : α → α → α)

def addFragment (entries : List (κ × α)) (f : κ × α) : List (κ × α) :=
  if f.1 ∈ keys entries then
    entries.map fun e => if e.1 = f.1 then (e.1, op e.2 f.2) else e
  else entries ++ [f]

def gather (fragments : List (κ × α)) : List (κ × α) := fragments.foldl (addFragment op) []

variable {op} {entries first second : List (κ × α)} {f : κ × α}

theorem map_fragment_of_not_mem (h : f.1 ∉ keys entries) :
    (entries.map fun e => if e.1 = f.1 then (e.1, op e.2 f.2) else e) = entries := by
  refine (map_congr_left fun e he => ?_).trans (map_id entries)
  have hne : e.1 ≠ f.1 := fun heq => h (heq ▸ mem_map_of_mem he)
  simp [hne]

theorem addFragment_of_not_mem (h : f.1 ∉ keys entries) :
    addFragment op entries f = entries ++ [f] :=
  if_neg h

theorem addFragment_append_left (h : f.1 ∉ keys first) :
    addFragment op (first ++ second) f = first ++ addFragment op second f := by
  unfold addFragment
  by_cases hmem : f.1 ∈ keys second
  · simp [hmem, map_fragment_of_not_mem h]
  · simp [h, hmem]

variable {fragments : List (κ × α)} {k : κ}

theorem foldl_addFragment_append_left (h : ∀ f ∈ fragments, f.1 ∉ keys first) :
    fragments.foldl (addFragment op) (first ++ second) =
      first ++ fragments.foldl (addFragment op) second := by
  induction fragments generalizing second with
  | nil => rfl
  | cons f fragments ih =>
    rw [foldl_cons, foldl_cons, addFragment_append_left (h f mem_cons_self)]
    exact ih fun g hg => h g (mem_cons_of_mem f hg)

theorem mem_keys_addFragment :
    k ∈ keys (addFragment op entries f) ↔ k ∈ keys entries ∨ k = f.1 := by
  unfold addFragment
  by_cases hmem : f.1 ∈ keys entries
  · have hkeys : keys (entries.map fun e => if e.1 = f.1 then (e.1, op e.2 f.2) else e) =
        keys entries := by
      unfold keys
      rw [map_map]
      refine map_congr_left fun e _ => ?_
      dsimp only [Function.comp]
      split <;> rfl
    rw [if_pos hmem, hkeys]
    exact ⟨.inl, fun h => h.elim id fun heq => heq ▸ hmem⟩
  · simp [hmem]

theorem mem_keys_foldl :
    k ∈ keys (fragments.foldl (addFragment op) entries) ↔
      k ∈ keys entries ∨ k ∈ keys fragments := by
  induction fragments generalizing entries with
  | nil => simp
  | cons f fragments ih => simp [ih, mem_keys_addFragment, or_assoc]

theorem mem_keys_gather : k ∈ keys (gather op fragments) ↔ k ∈ keys fragments := by
  simp [gather, mem_keys_foldl]

theorem gather_append (h : ∀ f ∈ second, f.1 ∉ keys first) :
    gather op (first ++ second) = gather op first ++ gather op second := by
  have hfresh : ∀ f ∈ second, f.1 ∉ keys (gather op first) := by
    intro f hf
    rw [mem_keys_gather]
    exact h f hf
  have hsplit : second.foldl (addFragment op) (gather op first ++ []) =
      gather op first ++ gather op second := foldl_addFragment_append_left hfresh
  rw [append_nil] at hsplit
  rw [← hsplit]
  exact foldl_append

theorem gather_flatMap {fragments : β → List (κ × α)} {senders : List β}
    (h : senders.Pairwise fun a b => ∀ f ∈ fragments b, f.1 ∉ keys (fragments a)) :
    gather op (senders.flatMap fragments) = senders.flatMap fun a => gather op (fragments a) := by
  induction h with
  | nil => rfl
  | @cons a senders hhead _ ih =>
    rw [flatMap_cons, flatMap_cons, gather_append, ih]
    intro f hf
    obtain ⟨b, hb, hfb⟩ := mem_flatMap.mp hf
    exact hhead b hb f hfb

theorem foldl_addFragment_same (k : κ) (a : α) (values : List α) :
    (values.map fun b => (k, b)).foldl (addFragment op) [(k, a)] = [(k, values.foldl op a)] := by
  induction values generalizing a with
  | nil => rfl
  | cons b values ih =>
    have hjoin : addFragment op [(k, a)] (k, b) = [(k, op a b)] := by
      simp [addFragment]
    rw [map_cons, foldl_cons, hjoin]
    exact ih (op a b)

theorem gather_same (k : κ) (a : α) (values : List α) :
    gather op (((a :: values).map fun b => (k, b))) = [(k, values.foldl op a)] :=
  foldl_addFragment_same k a values

theorem gather_of_nodup (h : (keys fragments).Nodup) : gather op fragments = fragments := by
  induction fragments with
  | nil => rfl
  | cons f fragments ih =>
    rw [keys_cons, nodup_cons] at h
    have hapart : ∀ g ∈ fragments, g.1 ∉ keys [f] := by
      intro g hg hmem
      have heq : g.1 = f.1 := by simpa using hmem
      exact h.1 (heq ▸ mem_map_of_mem hg)
    have hsingle : gather op [f] = [f] := by
      simp [gather, addFragment]
    rw [← singleton_append, gather_append hapart, ih h.2, hsingle]

theorem length_addFragment :
    (addFragment op entries f).length =
      entries.length + if f.1 ∈ keys entries then 0 else 1 := by
  unfold addFragment
  split <;> simp

theorem length_foldl_addFragment_le :
    (fragments.foldl (addFragment op) entries).length ≤ entries.length + fragments.length := by
  induction fragments generalizing entries with
  | nil => exact Nat.le_refl _
  | cons f fragments ih =>
    have hrest := @ih (addFragment op entries f)
    rw [length_addFragment] at hrest
    rw [foldl_cons, length_cons]
    split at hrest <;> omega

theorem nodup_of_length_foldl (hnodup : (keys entries).Nodup)
    (h : (fragments.foldl (addFragment op) entries).length =
      entries.length + fragments.length) : (keys entries ++ keys fragments).Nodup := by
  induction fragments generalizing entries with
  | nil => simpa using hnodup
  | cons f fragments ih =>
    have hle := @length_foldl_addFragment_le _ _ _ op (addFragment op entries f) fragments
    rw [length_addFragment] at hle
    rw [foldl_cons, length_cons] at h
    have hfresh : f.1 ∉ keys entries := by
      intro hmem
      rw [if_pos hmem] at hle
      omega
    rw [addFragment_of_not_mem hfresh] at h
    have hnew : (keys (entries ++ [f])).Nodup := by
      rw [keys_append, nodup_append]
      refine ⟨hnodup, pairwise_singleton _ _, fun a ha b hb heq => hfresh ?_⟩
      rwa [← mem_singleton.mp hb, ← heq]
    have hrest := ih hnew (by rw [h, length_append, length_singleton]; omega)
    simpa using hrest

/-- Nothing is joined exactly if the keys are distinct. -/
theorem length_gather_eq_iff :
    (gather op fragments).length = fragments.length ↔ (keys fragments).Nodup := by
  constructor
  · intro h
    have hnil : (keys ([] : List (κ × α))).Nodup := nodup_nil
    exact nodup_of_length_foldl hnil (by simpa [gather] using h)
  · intro h
    rw [gather_of_nodup h]

def numbered (n : Nat) (values : List α) : List (Nat × α) := (values.zipIdx n).map Prod.swap

section

variable (n : Nat) (values : List α)

@[simp] theorem numbered_nil : numbered n ([] : List α) = [] := rfl

theorem numbered_cons (a : α) : numbered n (a :: values) = (n, a) :: numbered (n + 1) values := rfl

theorem numbered_append (more : List α) :
    numbered n (values ++ more) = numbered n values ++ numbered (n + values.length) more := by
  simp [numbered, zipIdx_append]

theorem numbered_map (g : α → β) :
    numbered n (values.map g) = (numbered n values).map fun e => (e.1, g e.2) := by
  simp [numbered, zipIdx_map, Function.comp_def]

theorem numbered_snd : (numbered n values).map Prod.snd = values := by
  have hswap : (numbered n values).map Prod.snd = (values.zipIdx n).map Prod.fst := by
    simp [numbered, Function.comp_def]
  rw [hswap, zipIdx_map_fst]

end

theorem le_of_mem_keys_numbered {n k : Nat} {values : List α} (h : k ∈ keys (numbered n values)) :
    n ≤ k ∧ k < n + values.length := by
  obtain ⟨e, he, rfl⟩ := mem_map.mp h
  obtain ⟨p, hp, rfl⟩ := mem_map.mp he
  exact ⟨le_snd_of_mem_zipIdx hp, snd_lt_add_of_mem_zipIdx hp⟩

section

variable {op : α → α → α} {n : Nat}

theorem not_mem_keys_of_mem_numbered {m : Nat} {a : α} {values : List α} (hlt : m < n) :
    ∀ f ∈ numbered n values, f.1 ∉ keys [(m, a)] := by
  intro f hf hmem
  have hle := (le_of_mem_keys_numbered (mem_map_of_mem hf)).1
  have heq : f.1 = m := by simpa using hmem
  omega

theorem gather_numbered (values : List α) : gather op (numbered n values) = numbered n values := by
  induction values generalizing n with
  | nil => rfl
  | cons a values ih =>
    rw [numbered_cons, ← singleton_append,
      gather_append (not_mem_keys_of_mem_numbered (Nat.lt_succ_self n)), ih]
    rfl

theorem foldl_addFragment_numbered {values more : List α} (h : values.length = more.length) :
    (numbered n more).foldl (addFragment op) (numbered n values) =
      numbered n (List.zipWith op values more) := by
  induction values generalizing n more with
  | nil =>
    rw [length_nil, eq_comm, length_eq_zero_iff] at h
    rw [h]
    rfl
  | cons a values ih =>
    obtain _ | ⟨b, more⟩ := more
    · cases h
    have hfresh : n ∉ keys (numbered (n + 1) values) := fun hmem =>
      Nat.not_succ_le_self n (le_of_mem_keys_numbered hmem).1
    have hjoin : addFragment op (numbered n (a :: values)) (n, b) =
        [(n, op a b)] ++ numbered (n + 1) values := by
      rw [numbered_cons, addFragment, if_pos (by simp), map_cons, if_pos rfl,
        map_fragment_of_not_mem hfresh]
      rfl
    rw [numbered_cons n more, foldl_cons, hjoin, foldl_addFragment_append_left
      (not_mem_keys_of_mem_numbered (Nat.lt_succ_self n)), ih (Nat.succ.inj h)]
    rfl

theorem gather_numbered_twice {values more : List α} (h : values.length = more.length)
    (rest : List α) :
    gather op (numbered n values ++ numbered n (more ++ rest)) =
      numbered n (List.zipWith op values more ++ rest) := by
  have hfresh : ∀ f ∈ numbered (n + more.length) rest,
      f.1 ∉ keys (numbered n values ++ numbered n more) := by
    intro f hf hmem
    have hle := (le_of_mem_keys_numbered (mem_map_of_mem hf)).1
    rw [keys_append, mem_append] at hmem
    rcases hmem with hmem | hmem
    · have := (le_of_mem_keys_numbered hmem).2
      omega
    · have := (le_of_mem_keys_numbered hmem).2
      omega
  have hjoin : gather op (numbered n values ++ numbered n more) =
      numbered n (List.zipWith op values more) := by
    have hfold : gather op (numbered n values ++ numbered n more) =
        (numbered n more).foldl (addFragment op) (gather op (numbered n values)) := foldl_append
    rw [hfold, gather_numbered, foldl_addFragment_numbered h]
  have hlength : (List.zipWith op values more).length = more.length := by
    rw [length_zipWith, h, Nat.min_self]
  rw [numbered_append, ← append_assoc, gather_append hfresh, hjoin, gather_numbered,
    numbered_append, hlength]

end

variable {σ : Type*} {step : σ → β → σ}

theorem foldl_overwrite {get : σ → α} {written : β → Option α}
    (h : ∀ s b, get (step s b) = (written b).getD (get s)) (s : σ) (inputs : List β) :
    get (inputs.foldl step s) = (inputs.filterMap written).getLast?.getD (get s) := by
  induction inputs generalizing s with
  | nil => rfl
  | cons b inputs ih =>
    rw [foldl_cons, ih, h]
    cases hb : written b with
    | none => rw [filterMap_cons_none hb, Option.getD_none]
    | some => rw [filterMap_cons_some hb, getLast?_cons, Option.getD_some, Option.getD_some]

theorem foldl_collect {get : σ → List α} {out : β → List α}
    (h : ∀ s b, get (step s b) = get s ++ out b) (s : σ) (inputs : List β) :
    get (inputs.foldl step s) = get s ++ inputs.flatMap out := by
  induction inputs generalizing s with
  | nil => simp
  | cons b inputs ih => rw [foldl_cons, ih, h, flatMap_cons, append_assoc]

end

/-!
## Fragments with positions

A receiver that keeps an array takes the number of a fragment as a position in
it, and fills what lies between.  It ends up with one entry for each sender if
the senders are numbered without gaps.
-/

section

variable {α : Type u} {p : α → Bool} {values : List α} {n : Nat}

def FrontLoaded (p : α → Bool) (values : List α) : Prop :=
  values.Pairwise fun a b => p b = true → p a = true

instance (p : α → Bool) (values : List α) : Decidable (FrontLoaded p values) := by
  unfold FrontLoaded
  infer_instance

theorem filter_zipIdx (h : FrontLoaded p values) :
    (values.zipIdx n).filter (fun e => p e.1) = (values.filter p).zipIdx n := by
  induction h generalizing n with
  | nil => rfl
  | @cons a values hhead _ ih =>
    rw [zipIdx_cons]
    by_cases ha : p a = true
    · simp [ha, ih]
    have hnone : values.filter p = [] := by
      apply filter_eq_nil_iff.mpr
      intro b hb hp
      exact ha (hhead b hb hp)
    simp [ha, ih, hnone]

theorem frontLoaded_of_filter_zipIdx
    (h : (values.zipIdx n).filter (fun e => p e.1) = (values.filter p).zipIdx n) :
    FrontLoaded p values := by
  induction values generalizing n with
  | nil => exact .nil
  | cons a values ih =>
    rw [zipIdx_cons] at h
    by_cases ha : p a = true
    · simp only [filter_cons, ha, if_true, zipIdx_cons, cons.injEq, true_and] at h
      exact .cons (fun _ _ _ => ha) (ih h)
    -- the first value that counts has a later place than the first number
    have hnone : values.filter p = [] := by
      by_contra hsome
      obtain ⟨b, rest, hrest⟩ := exists_cons_of_ne_nil hsome
      simp only [filter_cons, ha, Bool.false_eq_true, if_false, hrest, zipIdx_cons] at h
      have hmem : (b, n) ∈ (values.zipIdx (n + 1)).filter fun e => p e.1 := by
        rw [h]
        exact mem_cons_self
      have hle := le_snd_of_mem_zipIdx (mem_filter.mp hmem).1
      exact absurd hle (Nat.not_succ_le_self n)
    rw [filter_eq_nil_iff] at hnone
    exact .cons (fun b hb hp => absurd hp (hnone b hb))
      (pairwise_of_forall_mem_list fun b _ c hc hp => absurd hp (hnone c hc))

/-- Values that all send something are numbered alike if what they send is. -/
theorem eq_of_flatMap_tagged {β : Type v} {f : α → List β} {first second : List (α × Nat)}
    (hf : ∀ e ∈ first, f e.1 ≠ []) (hvalues : first.map Prod.fst = second.map Prod.fst)
    (h : (first.flatMap fun e => (f e.1).map fun b => (e.2, b)) =
      second.flatMap fun e => (f e.1).map fun b => (e.2, b)) : first = second := by
  induction first generalizing second with
  | nil => exact (map_eq_nil_iff.mp hvalues.symm).symm
  | cons e first ih =>
    obtain ⟨e', second, rfl⟩ : ∃ e' rest, second = e' :: rest := by
      cases second with
      | nil => cases hvalues
      | cons e' rest => exact ⟨e', rest, rfl⟩
    rw [map_cons, map_cons, cons.injEq] at hvalues
    rw [flatMap_cons, flatMap_cons] at h
    obtain ⟨hhead, hrest⟩ := append_inj h (by simp [hvalues.1])
    obtain ⟨b, sent, hsent⟩ := exists_cons_of_ne_nil (hf e mem_cons_self)
    rw [← hvalues.1, hsent, map_cons, map_cons, cons.injEq, Prod.mk.injEq] at hhead
    rw [Prod.ext hvalues.1 hhead.1.1,
      ih (fun g hg => hf g (mem_cons_of_mem e hg)) hvalues.2 hrest]

theorem flatMap_filter {β : Type v} (p : α → Bool) {f : α → List β}
    (hf : ∀ a, ¬ p a = true → f a = []) (values : List α) :
    values.flatMap f = (values.filter p).flatMap f := by
  induction values with
  | nil => rfl
  | cons a values ih =>
    by_cases ha : p a = true
    · simp [ha, ih]
    · simp [ha, ih, hf a ha]

end

section

variable {α : Type u} (op : α → α → α) (fill : α)

def placeFragment (entries : List α) (f : Nat × α) : List α :=
  (entries ++ List.replicate (f.1 + 1 - entries.length) fill).modify f.1 fun a => op a f.2

def place (fragments : List (Nat × α)) : List α := fragments.foldl (placeFragment op fill) []

variable {op fill} {entries : List α}

theorem modify_last (g : α → α) (a : α) :
    (entries ++ [a]).modify entries.length g = entries ++ [g a] := by
  induction entries with
  | nil => rfl
  | cons e entries ih => simp [ih]

theorem placeFragment_last (a b : α) :
    placeFragment op fill (entries ++ [a]) (entries.length, b) = entries ++ [op a b] := by
  simp [placeFragment, modify_last]

theorem placeFragment_next (b : α) :
    placeFragment op fill entries (entries.length, b) = entries ++ [op fill b] := by
  simp [placeFragment, modify_last]

theorem foldl_place_same (a : α) (more : List α) :
    (more.map fun b => (entries.length, b)).foldl (placeFragment op fill) (entries ++ [a]) =
      entries ++ [more.foldl op a] := by
  induction more generalizing a with
  | nil => rfl
  | cons b more ih => rw [map_cons, foldl_cons, placeFragment_last, ih, foldl_cons]

theorem foldl_place_groups {groups : List (List α)} (h : ∀ g ∈ groups, g ≠ []) :
    ((groups.zipIdx entries.length).flatMap fun g => g.1.map fun b => (g.2, b)).foldl
        (placeFragment op fill) entries =
      entries ++ groups.map fun g => g.foldl op fill := by
  induction groups generalizing entries with
  | nil => simp
  | cons g groups ih =>
    rw [zipIdx_cons, flatMap_cons, foldl_append]
    cases g with
    | nil => exact absurd rfl (h [] mem_cons_self)
    | cons a more =>
      rw [map_cons, foldl_cons, placeFragment_next, foldl_place_same]
      have hlength : entries.length + 1 = (entries ++ [more.foldl op (op fill a)]).length := by
        simp
      rw [hlength, ih fun g hg => h g (mem_cons_of_mem _ hg)]
      simp

theorem place_groups {groups : List (List α)} (h : ∀ g ∈ groups, g ≠ []) :
    place op fill (groups.zipIdx.flatMap fun g => g.1.map fun b => (g.2, b)) =
      groups.map fun g => g.foldl op fill := foldl_place_groups h

end

end NewApi.Foundation
