/-
Module: FameZ.Lib.Mmap
Purpose: Python's accesses to a mapped file: slices that are clipped at its end,
  the exceptions they end in, and the extents that a program touches.
Trusted boundary: none
Main exports: PyError, Mmap, Access, getSlice, setSlice, setItem, unpackQ,
  Runs, Runs.bind, Runs.bind_error, Runs.forM
-/
import FameZ.Lib.ByteMemory

/-- The exceptions that a program on a mapping raises. -/
inductive PyError where
  | assertionError
  | indexError
  | structError
  | unicodeDecodeError
deriving Repr, DecidableEq

/-- A mapping of `size` bytes, and what was accessed in it: the first address
and the one behind the last. -/
structure Mmap where
  size : Nat
  bytes : Memory
  touched : List (Nat × Nat)

namespace Mmap

open Memory

/-- A program on a mapping.  What it stored before an exception stays. -/
abbrev Access := ExceptT PyError (StateM Mmap)

variable {α β ι : Type}

def touch (m : Mmap) (start stop : Nat) : Mmap :=
  { m with touched := m.touched ++ [(start, stop)] }

/-- `mm[start:stop]`. -/
def getSlice (start stop : Nat) : Access (List UInt8) := fun m =>
  (.ok (m.bytes.readBytes (min start m.size)
    (min stop m.size - min start m.size)), m.touch start stop)

/-- `mm[start:stop] = data`, which must fill the clipped slice. -/
def setSlice (start stop : Nat) (data : List UInt8) : Access Unit := fun m =>
  if data.length = min stop m.size - min start m.size then
    (.ok (), { m.touch start stop with
      bytes := m.bytes.write (min start m.size) data })
  else (.error .indexError, m)

/-- `mm[index] = byte`. -/
def setItem (index : Nat) (byte : UInt8) : Access Unit := fun m =>
  if index < m.size then
    (.ok (), { m.touch index (index + 1) with
      bytes := m.bytes.write index [byte] })
  else (.error .indexError, m)

/-- `assert condition`. -/
def check (condition : Prop) [Decidable condition] : Access Unit :=
  if condition then pure () else throw .assertionError

/-- `struct.unpack('Q', data)[0]`. -/
def unpackQ (data : List UInt8) : Access Nat :=
  if data.length = 8 then pure (wordValue data) else throw .structError

/-- The program comes to `outcome`, leaves the bytes `after` and touches the
extents. -/
def Runs (program : Access α) (size : Nat) (bytes : Memory)
    (outcome : Except PyError α) (after : Memory)
    (extents : List (Nat × Nat)) : Prop :=
  ∀ touched, program ⟨size, bytes, touched⟩ =
    (outcome, ⟨size, after, touched ++ extents⟩)

namespace Runs

variable {size start stop : Nat} {bytes after last : Memory}
  {extents more : List (Nat × Nat)} {outcome : Except PyError β} {value : α}
  {error : PyError} {program : Access α} {next : α → Access β}

theorem pure (value : α) :
    Runs (Pure.pure value) size bytes (.ok value) bytes [] := by
  intro touched
  rw [List.append_nil]
  rfl

theorem throw (error : PyError) :
    Runs (throw error : Access α) size bytes (.error error) bytes [] := by
  intro touched
  rw [List.append_nil]
  rfl

theorem bind (first : Runs program size bytes (.ok value) after extents)
    (second : Runs (next value) size after outcome last more) :
    Runs (program >>= next) size bytes outcome last (extents ++ more) := by
  intro touched
  have ran := second (touched ++ extents)
  rw [List.append_assoc] at ran
  rw [← ran]
  change (ExceptT.bindCont next (program _).1) (program _).2 = _
  rw [first touched]
  rfl

/-- An exception ends the program. -/
theorem bind_error
    (first : Runs program size bytes (.error error) after extents) :
    Runs (program >>= next) size bytes (.error error) after extents := by
  intro touched
  change (ExceptT.bindCont next (program _).1) (program _).2 = _
  rw [first touched]
  rfl

/-- A last step that cannot fail works on the outcome. -/
theorem bind_pure {f : α → β} {result : Except PyError α}
    (first : Runs program size bytes result after extents) :
    Runs (program >>= fun value => Pure.pure (f value)) size bytes
      (result.map f) after extents := by
  cases result with
  | error error => exact first.bind_error
  | ok value =>
      have last : Runs (Pure.pure (f value)) size after (.ok (f value)) after
          [] := pure (f value)
      have both : Runs (program >>= fun value => Pure.pure (f value)) size
          bytes (.ok (f value)) after (extents ++ []) := first.bind last
      rwa [List.append_nil] at both

theorem getSlice (ordered : start ≤ stop) (inside : stop ≤ size) :
    Runs (Mmap.getSlice start stop) size bytes
      (.ok (bytes.readBytes start (stop - start))) bytes [(start, stop)] := by
  intro touched
  rw [Mmap.getSlice, Nat.min_eq_left inside,
    Nat.min_eq_left (Nat.le_trans ordered inside)]
  rfl

theorem setSlice {data : List UInt8} (filled : stop = start + data.length)
    (inside : stop ≤ size) :
    Runs (Mmap.setSlice start stop data) size bytes (.ok ())
      (bytes.write start data) [(start, stop)] := by
  intro touched
  have low : start ≤ size := by
    rw [filled] at inside
    exact Nat.le_trans (Nat.le_add_right ..) inside
  have width : data.length = stop - start := by
    rw [filled, Nat.add_sub_cancel_left]
  rw [Mmap.setSlice, Nat.min_eq_left inside, Nat.min_eq_left low, if_pos width]
  rfl

theorem setItem {index : Nat} {byte : UInt8} (inside : index < size) :
    Runs (Mmap.setItem index byte) size bytes (.ok ())
      (bytes.write index [byte]) [(index, index + 1)] := by
  intro touched
  exact if_pos inside

theorem check {condition : Prop} [Decidable condition] (met : condition) :
    Runs (Mmap.check condition) size bytes (.ok ()) bytes [] := by
  rw [Mmap.check, if_pos met]
  exact pure ()

theorem unpackQ {data : List UInt8} (width : data.length = 8) :
    Runs (Mmap.unpackQ data) size bytes (.ok (wordValue data)) bytes [] := by
  rw [Mmap.unpackQ, if_pos width]
  exact pure _

/-- A loop over a list, by what one turn stores and touches. -/
theorem forM {turn : ι → Access Unit} {store : Memory → ι → Memory}
    {extent : ι → List (Nat × Nat)} (items : List ι)
    (each : ∀ item ∈ items, ∀ bytes,
      Runs (turn item) size bytes (.ok ()) (store bytes item) (extent item)) :
    Runs (items.forM turn) size bytes (.ok ()) (items.foldl store bytes)
      (items.flatMap extent) := by
  induction items generalizing bytes with
  | nil => exact pure ()
  | cons item rest inductionHypothesis =>
      rw [List.flatMap_cons]
      have one := each item (List.mem_cons_self ..) bytes
      apply one.bind
      apply inductionHypothesis
      intro other member
      exact each other (List.mem_cons_of_mem _ member)

end Runs

end Mmap
