import Sylar.Buffer.Spec

namespace Sylar

open Logic Data

/-! A plain array with a cursor, and the buffer as an implementation of it. -/

inductive FlatOp
  | write (source : Bytes)
  | read (count : Nat)
  | setPosition (v : Nat)
  | clear
  | toString

structure Flat where
  mem : Bytes
  pos : Nat
  size : Nat

namespace Flat

inductive Step : Flat → FlatOp → Bytes → Flat → Prop
  | write {before after : Flat} {source : Bytes}
      (stored : (after.mem.drop before.pos).take source.length = source)
      (kept : ∀ index, index < before.mem.length →
        index < before.pos ∨ before.pos + source.length ≤ index →
        after.mem[index]? = before.mem[index]?)
      (grown : before.mem.length ≤ after.mem.length)
      (pos : after.pos = before.pos + source.length)
      (size : after.size = max before.size (before.pos + source.length)) :
      Step before (.write source) [] after
  | read (before : Flat) (count : Nat) (out : Bytes)
      (length : out.length = count)
      (bytes : out = (before.mem.drop before.pos).take count) :
      Step before (.read count) out { before with pos := before.pos + count }
  | setPosition (before : Flat) (v : Nat) :
      Step before (.setPosition v) []
        { before with pos := v, size := max before.size v }
  | clear (before : Flat) (kept : Nat) :
      Step before .clear [] ⟨before.mem.take kept, 0, 0⟩
  | toString (before : Flat) (out : Bytes)
      (length : out.length = before.size - before.pos)
      (bytes : out =
        (before.mem.drop before.pos).take (before.size - before.pos)) :
      Step before .toString out before

end Flat

/-! The bytes a run has written, whatever the memory held before. The bytes
below `keep` survive a `clear`. -/

structure Cells where
  cell : Nat → Option UInt8
  pos : Nat
  size : Nat

namespace Cells

def empty : Cells := ⟨fun _ => none, 0, 0⟩

def window (cells : Cells) (count : Nat) : List (Option UInt8) :=
  (List.range count).map fun index => cells.cell (cells.pos + index)

def step (keep : Nat) (cells : Cells) :
    FlatOp → List (Option UInt8) × Cells
  | .write source =>
      ([], {
        cell := fun index =>
          if cells.pos ≤ index ∧ index < cells.pos + source.length then
            source[index - cells.pos]?
          else cells.cell index
        pos := cells.pos + source.length
        size := max cells.size (cells.pos + source.length) })
  | .read count =>
      (cells.window count, { cells with pos := cells.pos + count })
  | .setPosition v => ([], { cells with pos := v, size := max cells.size v })
  | .clear =>
      ([], {
        cell := fun index => if index < keep then cells.cell index else none
        pos := 0
        size := 0 })
  | .toString => (cells.window (cells.size - cells.pos), cells)

def run (keep : Nat) : Cells → List FlatOp → Cells
  | cells, [] => cells
  | cells, op :: ops => run keep (cells.step keep op).2 ops

def outputs (keep : Nat) : Cells → List FlatOp → List (List (Option UInt8))
  | _, [] => []
  | cells, op :: ops =>
      (cells.step keep op).1 :: outputs keep (cells.step keep op).2 ops

/-- The output has the length of the window and each written byte in place. -/
def Shows (window : List (Option UInt8)) (out : Bytes) : Prop :=
  out.length = window.length ∧
    ∀ (index : Nat) (byte : UInt8), window[index]? = some (some byte) →
      out[index]? = some byte

theorem shows_nil : Shows [] [] := ⟨rfl, by simp⟩

theorem shows_window {cells : Cells} {mem : Bytes} {count : Nat}
    (agree : ∀ (index : Nat) (byte : UInt8), cells.cell index = some byte →
      mem[index]? = some byte)
    (enough : cells.pos + count ≤ mem.length) :
    Shows (cells.window count) ((mem.drop cells.pos).take count) := by
  constructor
  · simp only [window, List.length_map, List.length_range, List.length_take,
      List.length_drop]
    omega
  · intro index byte shown
    have inside : index < count := by
      by_contra outside
      rw [List.getElem?_eq_none (by simp [window]; omega)] at shown
      cases shown
    rw [window, List.getElem?_map, List.getElem?_range inside,
      Option.map_some, Option.some.injEq] at shown
    rw [List.getElem?_take_of_lt inside, List.getElem?_drop]
    exact agree _ _ shown

theorem shows_at {expected : List (List (Option UInt8))} {outs : List Bytes}
    (shown : List.Forall₂ Shows expected outs) {index : Nat}
    {window : List (Option UInt8)} {out : Bytes}
    (atExpected : expected[index]? = some window)
    (atOuts : outs[index]? = some out) : Shows window out := by
  induction shown generalizing index with
  | nil => cases atExpected
  | cons head _ ih =>
      cases index with
      | zero =>
          cases atExpected
          cases atOuts
          exact head
      | succ index => exact ih atExpected atOuts

end Cells

namespace ByteArray

def flat (ba : ByteArray) : Flat := ⟨memory ba.root, ba.position, ba.size⟩

end ByteArray

namespace FlatOp

def run : FlatOp → Method Bytes
  | .write source => do
      ByteArray.write source
      pure []
  | .read count => ByteArray.read count
  | .setPosition v => do
      ByteArray.setPosition v
      pure []
  | .clear => do
      ByteArray.clear
      pure []
  | .toString => ByteArray.toString

/-- A read is of at least one byte and within `getReadSize`, a position within
the capacity. -/
def Allowed (ba : ByteArray) : FlatOp → Prop
  | .read count => 0 < count ∧ count ≤ ba.getReadSize
  | .setPosition v => v ≤ ba.capacity
  | _ => True

instance (ba : ByteArray) : (op : FlatOp) → Decidable (op.Allowed ba)
  | .read count => inferInstanceAs (Decidable (0 < count ∧ count ≤ ba.getReadSize))
  | .setPosition v => inferInstanceAs (Decidable (v ≤ ba.capacity))
  | .write _ => inferInstanceAs (Decidable True)
  | .clear => inferInstanceAs (Decidable True)
  | .toString => inferInstanceAs (Decidable True)

end FlatOp

/-- The agreement of the buffer with the cells written so far. -/
structure Agrees (keep : Nat) (ba : ByteArray) (cells : Cells) : Prop where
  inv : ba.Inv
  keep_le : keep ≤ ba.baseSize
  pos : ba.position = cells.pos
  size : ba.size = cells.size
  written : ∀ (index : Nat) (byte : UInt8), cells.cell index = some byte →
    (memory ba.root)[index]? = some byte

namespace FlatOp

/-- One allowed operation is one step of the plain array, and returns every
byte that was written. -/
structure Simulated (keep : Nat) (cells : Cells) (op : FlatOp)
    (ba : ByteArray) (out : Bytes) (next : ByteArray) : Prop where
  step : Flat.Step ba.flat op out next.flat
  agrees : Agrees keep next (cells.step keep op).2
  shows : Cells.Shows (cells.step keep op).1 out

variable {keep : Nat} {ba : ByteArray} {cells : Cells}

theorem run_write (agrees : Agrees keep ba cells) (source : Bytes) :
    ∃ next, (FlatOp.write source).run ba = .done [] next ∧
      Simulated keep cells (.write source) ba [] next := by
  obtain ⟨next, result, written⟩ := ByteArray.write_spec agrees.inv source
  obtain ⟨extra, fits, stored⟩ := written.memory
  have fitsSum := fits
  rw [List.length_append] at fitsSum
  refine ⟨next, Prog.bind_done result, {
    step := .write ?_ ?_ ?_ written.position written.size
    agrees := {
      inv := written.inv
      keep_le := by rw [written.baseSize]; exact agrees.keep_le
      pos := by rw [written.position, agrees.pos]; rfl
      size := by rw [written.size, agrees.size, agrees.pos]; rfl
      written := ?_ }
    shows := Cells.shows_nil }⟩
  · simp only [ByteArray.flat, stored]
    exact drop_take_blit fits
  · intro index inside outside
    simp only [ByteArray.flat] at inside outside ⊢
    rw [stored, blit_getElem?, if_neg (by omega),
      List.getElem?_append_left inside]
  · simp only [ByteArray.flat, stored, blit_length, List.length_append]
    omega
  · intro index byte shown
    rw [stored, blit_getElem?, agrees.pos]
    simp only [Cells.step] at shown
    rw [agrees.pos] at fitsSum
    by_cases inside : cells.pos ≤ index ∧ index < cells.pos + source.length
    · rw [if_pos inside] at shown
      rw [if_pos (by rw [List.length_append]; omega)]
      exact shown
    · rw [if_neg inside] at shown
      rw [if_neg (by omega)]
      have old := agrees.written index byte shown
      rw [List.getElem?_append_left (List.getElem?_eq_some_iff.mp old).1]
      exact old

theorem run_read (agrees : Agrees keep ba cells) {count : Nat}
    (nonempty : 0 < count) (enough : count ≤ ba.getReadSize) :
    ∃ out next, (FlatOp.read count).run ba = .done out next ∧
      Simulated keep cells (.read count) ba out next := by
  have order := agrees.inv.position_le
  have within := agrees.inv.size_le
  have sizes : ba.position + count ≤ ba.size := by
    unfold ByteArray.getReadSize at enough
    omega
  have stays : (if ba.size < ba.position + count then ba.position + count
      else ba.size) = ba.size := if_neg (by omega)
  refine ⟨_, _, ByteArray.read_spec agrees.inv enough (by omega), {
    step := ?_
    agrees := {
      inv := agrees.inv.moveTo (by omega)
      keep_le := agrees.keep_le
      pos := by rw [ByteArray.moveTo, agrees.pos]; rfl
      size := by rw [ByteArray.moveTo, stays, agrees.size]; rfl
      written := agrees.written }
    shows := ?_ }⟩
  · have step := Flat.Step.read ba.flat count
      (((memory ba.root).drop ba.position).take count)
      (by
        rw [List.length_take, List.length_drop, agrees.inv.memory_length]
        omega) rfl
    simpa only [ByteArray.flat, ByteArray.moveTo, stays] using step
  · rw [agrees.pos]
    refine Cells.shows_window agrees.written ?_
    rw [agrees.inv.memory_length, ← agrees.pos]
    omega

theorem run_setPosition (agrees : Agrees keep ba cells) {v : Nat}
    (bound : v ≤ ba.capacity) :
    ∃ next, (FlatOp.setPosition v).run ba = .done [] next ∧
      Simulated keep cells (.setPosition v) ba [] next := by
  have larger : (if ba.size < v then v else ba.size) = max ba.size v := by
    split <;> omega
  refine ⟨_, Prog.bind_done (ByteArray.setPosition_spec agrees.inv bound), {
    step := ?_
    agrees := {
      inv := agrees.inv.moveTo bound
      keep_le := agrees.keep_le
      pos := rfl
      size := by rw [ByteArray.moveTo, larger, agrees.size]; rfl
      written := agrees.written }
    shows := Cells.shows_nil }⟩
  have step := Flat.Step.setPosition ba.flat v
  simpa only [ByteArray.flat, ByteArray.moveTo, larger] using step

theorem run_clear (agrees : Agrees keep ba cells) :
    ∃ next, FlatOp.clear.run ba = .done [] next ∧
      Simulated keep cells .clear ba [] next := by
  obtain ⟨next, result, cleared⟩ := ByteArray.clear_spec agrees.inv
  refine ⟨next, Prog.bind_done result, {
    step := ?_
    agrees := {
      inv := cleared.inv
      keep_le := by rw [cleared.baseSize]; exact agrees.keep_le
      pos := cleared.position
      size := cleared.size
      written := ?_ }
    shows := Cells.shows_nil }⟩
  · have step := Flat.Step.clear ba.flat ba.baseSize
    simpa only [ByteArray.flat, cleared.memory, cleared.position,
      cleared.size] using step
  · intro index byte shown
    simp only [Cells.step] at shown
    have keep_le := agrees.keep_le
    by_cases inside : index < keep
    · rw [if_pos inside] at shown
      rw [cleared.memory, List.getElem?_take_of_lt (by omega)]
      exact agrees.written index byte shown
    · rw [if_neg inside] at shown
      cases shown

theorem run_toString (agrees : Agrees keep ba cells) :
    ∃ out next, FlatOp.toString.run ba = .done out next ∧
      Simulated keep cells .toString ba out next := by
  have order := agrees.inv.position_le
  have within := agrees.inv.size_le
  refine ⟨_, _, ByteArray.toString_spec agrees.inv, {
    step := .toString ba.flat _ ?_ rfl
    agrees := agrees
    shows := ?_ }⟩
  · rw [List.length_take, List.length_drop, agrees.inv.memory_length]
    simp only [ByteArray.flat]
    omega
  · rw [agrees.pos, agrees.size]
    refine Cells.shows_window agrees.written ?_
    rw [agrees.inv.memory_length, ← agrees.pos, ← agrees.size]
    omega

theorem run_simulated (agrees : Agrees keep ba cells) (op : FlatOp)
    (allowed : op.Allowed ba) :
    ∃ out next, op.run ba = .done out next ∧
      Simulated keep cells op ba out next := by
  cases op with
  | write source => exact ⟨[], run_write agrees source⟩
  | read count => exact run_read agrees allowed.1 allowed.2
  | setPosition v => exact ⟨[], run_setPosition agrees allowed⟩
  | clear => exact ⟨[], run_clear agrees⟩
  | toString => exact run_toString agrees

end FlatOp

namespace ByteArray

/-- A run of allowed operations, each with what it returned. -/
inductive Drive : ByteArray → List FlatOp → List Bytes → ByteArray → Prop
  | nil (ba : ByteArray) : Drive ba [] [] ba
  | cons {ba next after : ByteArray} {op : FlatOp} {ops : List FlatOp}
      {out : Bytes} {outs : List Bytes} (allowed : op.Allowed ba)
      (ran : op.run ba = .done out next) (rest : Drive next ops outs after) :
      Drive ba (op :: ops) (out :: outs) after

theorem agrees_new (byteOrder : Endian) (heap : Nat → UInt8)
    {baseSize keep : Nat} (positive : 1 ≤ baseSize) (keep_le : keep ≤ baseSize) :
    Agrees keep (new byteOrder heap baseSize) .empty where
  inv := inv_new byteOrder heap positive
  keep_le := keep_le
  pos := rfl
  size := rfl
  written := by
    intro index byte shown
    cases shown

theorem Drive.simulated {keep : Nat} {ba after : ByteArray}
    {ops : List FlatOp} {outs : List Bytes}
    (driven : Drive ba ops outs after) {cells : Cells}
    (agrees : Agrees keep ba cells) :
    Agrees keep after (cells.run keep ops) ∧
      List.Forall₂ Cells.Shows (cells.outputs keep ops) outs := by
  induction driven generalizing cells with
  | nil ba => exact ⟨agrees, .nil⟩
  | cons allowed ran rest ih =>
      obtain ⟨out, next, result, simulated⟩ :=
        FlatOp.run_simulated agrees _ allowed
      rw [ran] at result
      cases result
      obtain ⟨final, shown⟩ := ih simulated.agrees
      exact ⟨final, .cons simulated.shows shown⟩

/-- The buffer is a plain array with a cursor, and its base size shows in no
byte that was written. -/
theorem refines_flat (byteOrder : Endian) (heap : Nat → UInt8)
    {baseSize : Nat} (positive : 1 ≤ baseSize) {ops : List FlatOp}
    {outs : List Bytes} {ba : ByteArray}
    (driven : Drive (new byteOrder heap baseSize) ops outs ba) :
    (∀ op : FlatOp, op.Allowed ba →
      ∃ out next, op.run ba = .done out next ∧
        Flat.Step ba.flat op out next.flat) ∧
    ∀ (otherHeap : Nat → UInt8) (otherSize : Nat) (otherOuts : List Bytes)
      (other : ByteArray), 1 ≤ otherSize →
      Drive (new byteOrder otherHeap otherSize) ops otherOuts other →
      other.position = ba.position ∧ other.size = ba.size ∧
      ∀ (index : Nat) (cells : List (Option UInt8)) (out otherOut : Bytes),
        (Cells.empty.outputs (min baseSize otherSize) ops)[index]? =
          some cells →
        outs[index]? = some out → otherOuts[index]? = some otherOut →
        otherOut.length = out.length ∧
        ∀ (offset : Nat) (byte : UInt8),
          cells[offset]? = some (some byte) →
          out[offset]? = some byte ∧ otherOut[offset]? = some byte := by
  constructor
  · intro op allowed
    obtain ⟨agrees, -⟩ := driven.simulated
      (agrees_new byteOrder heap positive (Nat.zero_le baseSize))
    obtain ⟨out, next, result, simulated⟩ :=
      FlatOp.run_simulated agrees op allowed
    exact ⟨out, next, result, simulated.step⟩
  · intro otherHeap otherSize otherOuts other otherPositive otherDriven
    obtain ⟨agrees, shown⟩ := driven.simulated
      (agrees_new byteOrder heap positive (Nat.min_le_left _ otherSize))
    obtain ⟨otherAgrees, otherShown⟩ := otherDriven.simulated
      (agrees_new byteOrder otherHeap otherPositive
        (Nat.min_le_right baseSize _))
    refine ⟨?_, ?_, ?_⟩
    · rw [agrees.pos, otherAgrees.pos]
    · rw [agrees.size, otherAgrees.size]
    · intro index cells out otherOut expected produced otherProduced
      have left := Cells.shows_at shown expected produced
      have right := Cells.shows_at otherShown expected otherProduced
      refine ⟨by rw [left.1, right.1], ?_⟩
      intro offset byte written
      exact ⟨left.2 offset byte written, right.2 offset byte written⟩

/-- A write across node boundaries, read back from nodes of two bytes and from
nodes of three. -/
theorem refines_flat_two_sizes :
    ∃ (ba other : ByteArray) (outs otherOuts : List Bytes),
      Drive (new .little (fun _ => 0) 2)
        [.write [1, 2, 3], .setPosition 1, .read 2] outs ba ∧
      Drive (new .little (fun _ => 7) 3)
        [.write [1, 2, 3], .setPosition 1, .read 2] otherOuts other ∧
      (∃ out next, FlatOp.clear.run ba = .done out next ∧
        Flat.Step ba.flat .clear out next.flat) ∧
      other.position = ba.position := by
  have driven : Drive (new .little (fun _ => 0) 2)
      [.write [1, 2, 3], .setPosition 1, .read 2] [[], [], [2, 3]] _ :=
    .cons trivial rfl (.cons (by decide) rfl
      (.cons (by decide) rfl (.nil _)))
  have otherDriven : Drive (new .little (fun _ => 7) 3)
      [.write [1, 2, 3], .setPosition 1, .read 2] [[], [], [2, 3]] _ :=
    .cons trivial rfl (.cons (by decide) rfl
      (.cons (by decide) rfl (.nil _)))
  obtain ⟨simulates, agrees⟩ :=
    refines_flat .little (fun _ => 0) (by decide) driven
  exact ⟨_, _, _, _, driven, otherDriven, simulates .clear trivial,
    (agrees (fun _ => 7) 3 _ _ (by decide) otherDriven).1⟩

end ByteArray

end Sylar
