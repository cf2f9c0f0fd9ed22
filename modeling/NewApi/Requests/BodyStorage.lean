import Mathlib.Algebra.BigOperators.Group.List.Basic
import Mathlib.Algebra.Ring.Nat
import NewApi.Foundation.Decimal
import NewApi.Foundation.Run
import Mathlib.Data.PNat.Basic

/-!
# Body storages

A request body is kept in memory or in a file, which is a byte array with a position.
-/

namespace NewApi.BodyStorage

open Foundation

inductive Error where
  | closed
  | eof
  | unexpectedEOF
  | seek

inductive Value where
  | data (bytes : List UInt8)
  | number (n : Int)
  | done

inductive Op where
  | read (buffer : ℕ+)
  | seek (offset : Int64) (whence : Int)
  | bytes
  | size
  | close

/-- What changes of a storage: its bytes and its size never do. -/
structure Storage where
  pos : Nat := 0
  closed : Bool := false

abbrev Answer (α : Type) := Except Error α × Storage

def Answer.andThen {α β : Type} (f : α → Storage → Answer β) : Answer α → Answer β
  | (.ok a, s) => f a s
  | (.error e, s) => (.error e, s)

theorem Answer.ok_andThen {α β : Type} (f : α → Storage → Answer β) (a : α) (s : Storage) :
    Answer.andThen f (.ok a, s) = f a s := rfl

structure Backend where
  read : Nat → Storage → Answer (List UInt8)
  seek : Int → Int → Storage → Answer Int
  bytes : Storage → Answer (List UInt8)
  size : Int

def Backend.step (b : Backend) (s : Storage) : Op → Answer Value
  | .size => (.ok (.number b.size), s)
  | .close => (.ok .done, { s with closed := true })
  | .read buffer => unlessClosed (b.read buffer s) .data
  | .seek offset whence => unlessClosed (b.seek offset.toInt whence s) .number
  | .bytes => unlessClosed (b.bytes s) .data
where
  unlessClosed {α : Type} (answer : Answer α) (value : α → Value) : Answer Value :=
    if s.closed then (.error .closed, s) else (answer.1.map value, answer.2)

def Backend.after (b : Backend) (ops : List Op) : Storage :=
  run (fun s op => (b.step s op).2) {} ops

section

variable (data : List UInt8)

def origin (s : Storage) (whence : Int) : Option Int :=
  if whence = 0 then some 0 else if whence = 1 then some s.pos
  else if whence = 2 then some data.length else none

def memoryStorage : Backend where
  read buffer s :=
    if data.length ≤ s.pos then (.error .eof, s)
    else
      let chunk := (data.drop s.pos).take buffer
      (.ok chunk, { s with pos := s.pos + chunk.length })
  seek offset whence s :=
    match origin data s whence with
    | none => (.error .seek, s)
    | some base =>
      let abs := wrap64 (base + offset)
      if abs < 0 then (.error .seek, s) else (.ok abs, { s with pos := abs.toNat })
  bytes s := (.ok data, s)
  size := data.length

variable (lseek : Int → Int → Option Nat)

namespace File

def read (buffer : Nat) (s : Storage) : Answer (List UInt8) :=
  let chunk := (data.drop s.pos).take buffer
  if chunk = [] ∧ buffer ≠ 0 then (.error .eof, s)
  else (.ok chunk, { s with pos := s.pos + chunk.length })

/-- `lseek` is what the system makes of a whence other than 0, 1 and 2. -/
def seek (offset whence : Int) (s : Storage) : Answer Int :=
  match origin data s whence with
  | none =>
    match lseek offset whence with
    | none => (.error .seek, s)
    | some pos => (.ok pos, { s with pos })
  | some base =>
    let target := base + offset
    if 0 ≤ target ∧ Fits64 target then (.ok target, { s with pos := target.toNat })
    else (.error .seek, s)

/-- `io.ReadFull`: a read delivers all there is, so a second one would find the end. -/
def readFull (buffer : Nat) (s : Storage) : Answer (List UInt8) :=
  (read data buffer s).andThen fun chunk s =>
    if chunk.length < buffer then (.error .unexpectedEOF, s) else (.ok chunk, s)

end File

def diskStorage : Backend where
  read := File.read data
  seek := File.seek data lseek
  bytes s :=
    (File.seek data lseek 0 1 s).andThen fun currentPos s =>
      (File.seek data lseek 0 0 s).andThen fun _ s =>
      (File.readFull data data.length s).andThen fun content s =>
        (File.seek data lseek currentPos 0 s).andThen fun _ s => (.ok content, s)
  size := data.length

/-- A `Seek` with `io.SeekStart`, `io.SeekCurrent` or `io.SeekEnd`. -/
def Op.Standard : Op → Prop
  | .seek _ whence => whence ∈ [0, 1, 2]
  | _ => True

variable {data lseek} {s : Storage} {op : Op}

private theorem seek_eq (hdata : Fits64 data.length) (hpos : Fits64 s.pos) (offset : Int64)
    {whence : Int} (hwhence : whence ∈ [0, 1, 2]) :
    (memoryStorage data).seek offset.toInt whence s =
      (diskStorage data lseek).seek offset.toInt whence s := by
  simp only [memoryStorage, diskStorage, File.seek]
  cases horigin : origin data s whence with
  | none =>
    unfold origin at horigin
    grind
  | some base =>
    have hbase : 0 ≤ base ∧ base < 2 ^ 63 := by
      have := hdata.2
      have := hpos.2
      unfold origin at horigin
      grind
    have hlow := offset.le_toInt
    have hhigh := offset.toInt_lt
    -- past the largest position the sum in memory wraps to a negative one
    by_cases hfits : Fits64 (base + offset.toInt)
    · have hwrap := wrap64_of_fits hfits
      grind
    · have hneg : wrap64 (base + offset.toInt) < 0 := by
        unfold wrap64 Fits64 at *
        omega
      grind

private theorem bytes_eq (hpos : Fits64 s.pos) :
    (diskStorage data lseek).bytes s = (.ok data, s) := by
  have hback : ∀ s', File.seek data lseek s.pos 0 s' =
      (.ok (s.pos : Int), { s' with pos := s.pos }) := by
    simp [File.seek, origin, hpos]
  have hcurrent : File.seek data lseek 0 1 s = (.ok (s.pos : Int), s) := by
    simp [File.seek, origin, hpos]
  have hzero : Fits64 0 := by decide
  have hstart : File.seek data lseek 0 0 s = (.ok 0, { s with pos := 0 }) := by
    simp [File.seek, origin, hzero]
  have hread : File.readFull data data.length { s with pos := 0 } =
      (.ok data, { s with pos := data.length }) := by
    simp [File.readFull, File.read, Answer.andThen]
  simp only [diskStorage, hcurrent, Answer.ok_andThen, hstart, hread, hback]

theorem step_eq (hdata : Fits64 data.length) (hpos : Fits64 s.pos)
    (hop : op.Standard) :
    (memoryStorage data).step s op = (diskStorage data lseek).step s op := by
  cases op with
  | read buffer =>
    refine congrArg (Backend.step.unlessClosed s · _) ?_
    simp [memoryStorage, diskStorage, File.read]
  | seek offset whence =>
    exact congrArg (Backend.step.unlessClosed s · _) (seek_eq hdata hpos offset hop)
  | bytes => exact congrArg (Backend.step.unlessClosed s · _) (bytes_eq hpos).symm
  | size | close => rfl

private theorem fits_step (hdata : Fits64 data.length) (hpos : Fits64 s.pos) (op : Op) :
    Fits64 ((memoryStorage data).step s op).2.pos := by
  cases op <;> simp only [Backend.step, Backend.step.unlessClosed, memoryStorage]
  case size | close => exact hpos
  case bytes => split <;> exact hpos
  case read buffer =>
    have hlength := hdata.2
    split_ifs with hclosed heof
    · exact hpos
    · exact hpos
    have hle : s.pos + ((data.drop s.pos).take buffer).length ≤ data.length := by grind
    exact ⟨by omega, by dsimp only; omega⟩
  case seek offset whence =>
    split
    · exact hpos
    cases origin data s whence with
    | none => exact hpos
    | some base =>
      simp only
      split_ifs with hneg
      · exact hpos
      rw [Int.toNat_of_nonneg (not_lt.mp hneg)]
      exact fits64_wrap64 _

def closedAnswer (size : Int) : Op → Except Error Value
  | .size => .ok (.number size)
  | .close => .ok .done
  | _ => .error .closed

theorem step_closed (b : Backend) (h : s.closed = true) (op : Op) :
    b.step s op = (closedAnswer b.size op, s) := by
  obtain ⟨pos, closed⟩ := s
  subst h
  cases op <;> rfl

private theorem after_closed (b : Backend) {ops : List Op} (h : .close ∈ ops) :
    (b.after ops).closed = true := by
  obtain ⟨before, later, rfl⟩ := List.append_of_mem h
  rw [Backend.after, run_append, run_cons]
  refine run_invariant (fun s op (hs : Storage.closed s = true) => ?_) rfl later
  rwa [step_closed b hs op]

end

/-- Whatever the file makes of another whence. -/
theorem storages_interchangeable (data : { data : List UInt8 // Fits64 data.length })
    (lseek : Int → Int → Option Nat) (ops : List Op) (op : Op)
    (hops : ∀ o ∈ ops, o.Standard) (hop : op.Standard) :
    let m := memoryStorage data
    let d := diskStorage data lseek
    m.step (m.after ops) op = d.step (d.after ops) op ∧
      (m.step (m.after ops) .bytes).2 = m.after ops ∧
      (d.step (d.after ops) .bytes).2 = d.after ops ∧
      (.close ∈ ops → m.step (m.after ops) op = (closedAnswer m.size op, m.after ops)) := by
  intro m d
  have hafter : m.after ops = d.after ops ∧ Fits64 (m.after ops).pos := by
    refine run_simulates (R := fun (s t : Storage) => s = t ∧ Fits64 s.pos) ?_
      ⟨rfl, by decide⟩
    rintro s _ o ho ⟨rfl, hpos⟩
    exact ⟨congrArg Prod.snd (step_eq data.2 hpos (hops o ho)), fits_step data.2 hpos o⟩
  have hbytes : (m.step (m.after ops) .bytes).2 = m.after ops := by
    simp only [Backend.step, Backend.step.unlessClosed]
    split <;> rfl
  have hstandard : Op.Standard .bytes := trivial
  rw [← hafter.1, ← step_eq data.2 hafter.2 hop, ← step_eq data.2 hafter.2 hstandard]
  exact ⟨rfl, hbytes, hbytes, fun h => step_closed m (after_closed m h) op⟩

theorem storages_interchangeable_reread :
    let data : { data : List UInt8 // Fits64 data.length } := ⟨[1, 2, 3], by decide⟩
    let ops : List Op := [.read 2, .bytes, .seek (-2) 1]
    let d := diskStorage data fun _ _ => none
    (d.step (d.after ops) (.read 5)).1 = .ok (.data [1, 2, 3]) ∧
      (memoryStorage data).step ((memoryStorage data).after ops) (.read 5) =
        d.step (d.after ops) (.read 5) :=
  ⟨rfl, (storages_interchangeable ⟨[1, 2, 3], by decide⟩ (fun _ _ => none)
    [.read 2, .bytes, .seek (-2) 1] (.read 5) (by simp [Op.Standard]) trivial).1⟩

/-- `SEEK_DATA` of a file, which `bytes.Reader` refuses. -/
theorem storages_differ :
    ((memoryStorage [1]).step {} (.seek 0 3)).1 = .error .seek ∧
      ((diskStorage [1] fun _ _ => some 0).step {} (.seek 0 3)).1 = .ok (.number 0) :=
  ⟨rfl, rfl⟩

/-!
## The budget of the disk cache

A creation asks for room, fills a file and counts it; `Close` removes the file and
takes it out of the count.  Each is a step of its own, so that calls can overlap.
-/

open List

structure Config where
  enabled : Bool
  threshold : Int
  maxSize : Nat
  fits : Fits64 maxSize

inductive Source where
  | data (size : Nat)
  | reader (contentLength : Int) (maxBytes : Nat)
  deriving DecidableEq

def Source.requested : Source → Int
  | .data size => size
  | .reader contentLength _ => contentLength

/-- `io.LimitReader` lets one byte too many through, so that it is noticed. -/
def Source.limit : Source → Nat
  | .data size => size
  | .reader _ maxBytes => maxBytes + 1

def Source.complete (written : Nat) : Source → Bool
  | .data size => written = size
  | .reader _ maxBytes => written ≤ maxBytes

structure Creation where
  source : Source
  written : Nat := 0
  deriving DecidableEq

/-- `usage` is `CurrentDiskUsageBytes`; `closing` are removed files that it still counts. -/
structure Cache where
  usage : Int := 0
  creating : List Creation := []
  stored : List Nat := []
  closing : List Nat := []

inductive Event where
  | create (source : Source)
  | write (creation : Creation) (bytes : Nat)
  | fail (creation : Creation)
  | incrementDiskFiles (creation : Creation)
  | remove (size : Nat)
  | decrementDiskFiles (size : Nat)

namespace Cache

variable (c : Config) (s : Cache)

def isDiskCacheAvailable (requestSize : Int) : Bool :=
  c.enabled && decide (wrap64 (s.usage + requestSize) ≤ c.maxSize)

def usesDisk : Source → Bool
  | .data size => c.enabled && decide (c.threshold ≤ size) && s.isDiskCacheAvailable c size
  | .reader contentLength _ =>
    c.enabled && decide (0 < contentLength) && decide (c.threshold ≤ contentLength) &&
      s.isDiskCacheAvailable c contentLength

def step : Event → Cache
  | .create source =>
    if s.usesDisk c source then { s with creating := ⟨source, 0⟩ :: s.creating } else s
  | .write w bytes =>
    if w ∈ s.creating ∧ w.written + bytes ≤ w.source.limit then
      { s with creating := ⟨w.source, w.written + bytes⟩ :: s.creating.erase w }
    else s
  | .fail w => { s with creating := s.creating.erase w }
  | .incrementDiskFiles w =>
    if w ∈ s.creating ∧ w.source.complete w.written then
      { s with
        usage := wrap64 (s.usage + w.written)
        creating := s.creating.erase w
        stored := w.written :: s.stored }
    else s
  | .remove size =>
    if size ∈ s.stored then { s with stored := s.stored.erase size, closing := size :: s.closing }
    else s
  | .decrementDiskFiles size =>
    if size ∈ s.closing then
      { s with
        usage := max 0 (wrap64 (s.usage - size))
        closing := s.closing.erase size }
    else s

def total : Nat := (s.creating.map Creation.written).sum + s.stored.sum

/-- Creations of files do not overlap, the sum fits, and no file gets more than was asked for. -/
def Orderly : Event → Prop
  | .create source =>
    s.usesDisk c source = true → s.creating = [] ∧ Fits64 (s.usage + source.requested)
  | .write w bytes => (w.written + bytes : Int) ≤ w.source.requested
  | _ => True

structure Within : Prop where
  counted : s.usage = (s.stored.sum + s.closing.sum : Nat)
  within : s.usage ≤ c.maxSize
  creating : s.creating = [] ∨ ∃ w, s.creating = [w] ∧ (w.written : Int) ≤ w.source.requested ∧
    s.usage + w.source.requested ≤ c.maxSize

variable {c s}

private theorem room_of_usesDisk {source : Source} (h : s.usesDisk c source = true)
    (hfits : Fits64 (s.usage + source.requested)) :
    0 ≤ source.requested ∧ s.usage + source.requested ≤ c.maxSize := by
  cases source with
  | data | reader =>
    simp only [usesDisk, isDiskCacheAvailable, Bool.and_eq_true, decide_eq_true_eq,
      Source.requested] at h hfits ⊢
    rw [wrap64_of_fits hfits] at h
    exact ⟨by omega, h.2.2⟩

theorem Within.eq_of_mem (h : s.Within c) {w : Creation} (hw : w ∈ s.creating) :
    s.creating = [w] ∧ (w.written : Int) ≤ w.source.requested ∧
      s.usage + w.source.requested ≤ c.maxSize := by
  obtain hnil | ⟨w', hw', hroom⟩ := h.creating
  · rw [hnil] at hw
    cases hw
  · rw [hw', mem_singleton] at hw
    exact hw ▸ ⟨hw', hroom⟩

theorem Within.create (h : s.Within c) {source : Source}
    (hok : s.Orderly c (.create source)) : (s.step c (.create source)).Within c := by
  dsimp only [Cache.step]
  split
  · next hdisk =>
    obtain ⟨hnil, hfits⟩ := hok hdisk
    refine ⟨h.counted, h.within, .inr ⟨⟨source, 0⟩, by rw [hnil], ?_⟩⟩
    exact room_of_usesDisk hdisk hfits
  · exact h

theorem Within.write (h : s.Within c) {w : Creation} {bytes : Nat}
    (hok : s.Orderly c (.write w bytes)) : (s.step c (.write w bytes)).Within c := by
  dsimp only [Cache.step]
  split
  · next hwrite =>
    obtain ⟨hw, -, hroom⟩ := h.eq_of_mem hwrite.1
    refine ⟨h.counted, h.within, .inr ⟨⟨w.source, w.written + bytes⟩, ?_, ?_, hroom⟩⟩
    · rw [hw, erase_cons_head]
    · exact_mod_cast hok
  · exact h

theorem Within.fail (h : s.Within c) (w : Creation) :
    (s.step c (.fail w)).Within c := by
  refine ⟨h.counted, h.within, ?_⟩
  dsimp only [Cache.step]
  by_cases hw : w ∈ s.creating
  · rw [(h.eq_of_mem hw).1]
    exact .inl (erase_cons_head ..)
  · rw [erase_of_not_mem hw]
    exact h.creating

theorem Within.increment (h : s.Within c) (w : Creation) :
    (s.step c (.incrementDiskFiles w)).Within c := by
  dsimp only [Cache.step]
  split
  · next hdone =>
    obtain ⟨hw, hwritten, hroom⟩ := h.eq_of_mem hdone.1
    have hcounted := h.counted
    have hmax := c.fits.2
    have hfits : Fits64 (s.usage + w.written) := ⟨by omega, by omega⟩
    rw [wrap64_of_fits hfits]
    refine ⟨?_, ?_, .inl (by rw [hw, erase_cons_head])⟩
    · dsimp only
      rw [sum_cons]
      omega
    · dsimp only
      omega
  · exact h

theorem Within.remove (h : s.Within c) (size : Nat) :
    (s.step c (.remove size)).Within c := by
  dsimp only [Cache.step]
  split
  · next hmem =>
    refine ⟨?_, h.within, h.creating⟩
    dsimp only
    rw [h.counted, ← sum_erase hmem, sum_cons]
    omega
  · exact h

theorem Within.decrement (h : s.Within c) (size : Nat) :
    (s.step c (.decrementDiskFiles size)).Within c := by
  dsimp only [Cache.step]
  split
  · next hmem =>
    have hcounted := h.counted
    have hwithin := h.within
    have hmax := c.fits.2
    rw [← sum_erase hmem] at hcounted
    have hfits : Fits64 (s.usage - size) := ⟨by omega, by omega⟩
    rw [wrap64_of_fits hfits, max_eq_right (by omega)]
    refine ⟨?_, ?_, h.creating.imp_right ?_⟩
    · dsimp only
      omega
    · dsimp only
      omega
    · rintro ⟨w, hw, hwritten, hroom⟩
      exact ⟨w, hw, hwritten, by dsimp only; omega⟩
  · exact h

theorem Within.step (h : s.Within c) {e : Event} (hok : s.Orderly c e) :
    (s.step c e).Within c := by
  cases e with
  | create source => exact h.create hok
  | write w bytes => exact h.write hok
  | fail w => exact h.fail w
  | incrementDiskFiles w => exact h.increment w
  | remove size => exact h.remove size
  | decrementDiskFiles size => exact h.decrement size

theorem Within.total_le (h : s.Within c) : s.total ≤ c.maxSize := by
  have hcounted := h.counted
  have hwithin := h.within
  unfold total
  obtain hnil | ⟨w, hw, hwritten, hroom⟩ := h.creating
  · rw [hnil, map_nil, sum_nil]
    omega
  · rw [hw, map_singleton, sum_singleton]
    omega

end Cache

open Cache

/-- At any time the files fit in the budget, and the count is exact between calls. -/
theorem disk_cache_within_budget (c : Config) (events : List Event)
    (h : Admits (Cache.step c) (Orderly c) {} events) (before after : List Event)
    (hevents : events = before ++ after) :
    (run (Cache.step c) {} before).total ≤ c.maxSize ∧
      ((run (Cache.step c) {} before).creating = [] →
        (run (Cache.step c) {} before).closing = [] →
        (run (Cache.step c) {} before).usage =
          (run (Cache.step c) {} before).total) := by
  rw [hevents, admits_append] at h
  have hwithin : (run (Cache.step c) {} before).Within c :=
    h.1.invariant (Within c) (fun s e hs he => hs.step he) ⟨rfl, by simp, .inl rfl⟩
  refine ⟨hwithin.total_le, fun hcreating hclosing => ?_⟩
  rw [hwithin.counted, Cache.total, hcreating, hclosing]
  simp

def hundredBytes : Config := ⟨true, 10, 100, by decide⟩

/-- Two files are counted and the first is closed. -/
def twoFiles : List Event :=
  [.create (.data 60), .write ⟨.data 60, 0⟩ 60, .incrementDiskFiles ⟨.data 60, 60⟩,
    .create (.reader 30 40), .write ⟨.reader 30 40, 0⟩ 30,
    .incrementDiskFiles ⟨.reader 30 40, 30⟩, .remove 60, .decrementDiskFiles 60]

theorem disk_cache_within_budget_two :
    (run (Cache.step hundredBytes) {} (twoFiles.take 6)).total = 90 ∧
      (run (Cache.step hundredBytes) {} twoFiles).total ≤ 100 ∧
      (run (Cache.step hundredBytes) {} twoFiles).usage =
        (run (Cache.step hundredBytes) {} twoFiles).total := by
  have hadmits : Admits (Cache.step hundredBytes) (Orderly hundredBytes) {} twoFiles :=
    ⟨fun _ => ⟨rfl, by decide⟩, Int.le_refl 60, trivial, fun _ => ⟨rfl, by decide⟩,
      Int.le_refl 30, trivial, trivial, trivial, trivial⟩
  have h := disk_cache_within_budget hundredBytes twoFiles hadmits twoFiles [] (by simp)
  exact ⟨by decide, h.1, h.2 rfl rfl⟩

/-- Two creations that ask before either is counted, a reader that delivers more than
declared, and a declared length whose sum with the count wraps. -/
theorem disk_cache_exceeded :
    (run (Cache.step hundredBytes) {} [.create (.data 60), .create (.data 60),
      .write ⟨.data 60, 0⟩ 60, .write ⟨.data 60, 0⟩ 60]).total = 120 ∧
    (run (Cache.step hundredBytes) {} [.create (.reader 10 200),
      .write ⟨.reader 10 200, 0⟩ 150]).total = 150 ∧
    (run (Cache.step hundredBytes) {} [.create (.data 60), .write ⟨.data 60, 0⟩ 60,
      .incrementDiskFiles ⟨.data 60, 60⟩, .create (.reader (2 ^ 63 - 1) 200),
      .write ⟨.reader (2 ^ 63 - 1) 200, 0⟩ 150]).total = 210 := by
  decide

end NewApi.BodyStorage
