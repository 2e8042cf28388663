import Sylar.Logic.Reach
import Sylar.Buffer.Typed

namespace Sylar

open Logic Data

namespace ByteArray

/-! The calls a client can make on an array, and the invariant over any
sequence of them. -/

inductive Op
  | write (source : Bytes)
  | read (size : Nat)
  | readAt (size position : Nat)
  | setPosition (v : Nat)
  | clear
  | toString
  | getReadBuffers (len : Nat)
  | getReadBuffersAt (len position : Nat)
  | getWriteBuffers (len : Nat)
  | setIsLittleEndian (val : Bool)
  | writeFint8 (value : Int8)
  | writeFuint8 (value : UInt8)
  | writeFint16 (value : Int16)
  | writeFuint16 (value : UInt16)
  | writeFint32 (value : Int32)
  | writeFuint32 (value : UInt32)
  | writeFint64 (value : Int64)
  | writeFuint64 (value : UInt64)
  | writeInt32 (value : Int32)
  | writeUint32 (value : UInt32)
  | writeInt64 (value : Int64)
  | writeUint64 (value : UInt64)
  | writeFloat (bits : UInt32)
  | writeDouble (bits : UInt64)
  | writeStringF16 (value : Bytes)
  | writeStringF32 (value : Bytes)
  | writeStringF64 (value : Bytes)
  | writeStringVint (value : Bytes)
  | writeStringWithoutLength (value : Bytes)
  | readFint8
  | readFuint8
  | readFint16
  | readFuint16
  | readFint32
  | readFuint32
  | readFint64
  | readFuint64
  | readInt32
  | readUint32
  | readInt64
  | readUint64
  | readFloat
  | readDouble
  | readStringF16
  | readStringF32
  | readStringF64
  | readStringVint

/-- The state a call leaves, `none` where it dereferences a null node. -/
def Op.after (host : Host) (ba : ByteArray) : Op → Option ByteArray
  | .write source => (ByteArray.write source ba).state?
  | .read size => (ByteArray.read size ba).state?
  | .readAt size position => (ByteArray.readAt size position ba).state?
  | .setPosition v => (ByteArray.setPosition v ba).state?
  | .clear => (ByteArray.clear ba).state?
  | .toString => (ByteArray.toString ba).state?
  | .getReadBuffers len => (ByteArray.getReadBuffers len ba).state?
  | .getReadBuffersAt len position =>
      (ByteArray.getReadBuffersAt len position ba).state?
  | .getWriteBuffers len => (ByteArray.getWriteBuffers len ba).state?
  | .setIsLittleEndian val => (ByteArray.setIsLittleEndian val ba).state?
  | .writeFint8 value => (ByteArray.writeFint8 value ba).state?
  | .writeFuint8 value => (ByteArray.writeFuint8 value ba).state?
  | .writeFint16 value => (ByteArray.writeFint16 host value ba).state?
  | .writeFuint16 value => (ByteArray.writeFuint16 host value ba).state?
  | .writeFint32 value => (ByteArray.writeFint32 host value ba).state?
  | .writeFuint32 value => (ByteArray.writeFuint32 host value ba).state?
  | .writeFint64 value => (ByteArray.writeFint64 host value ba).state?
  | .writeFuint64 value => (ByteArray.writeFuint64 host value ba).state?
  | .writeInt32 value => (ByteArray.writeInt32 value ba).state?
  | .writeUint32 value => (ByteArray.writeUint32 value ba).state?
  | .writeInt64 value => (ByteArray.writeInt64 value ba).state?
  | .writeUint64 value => (ByteArray.writeUint64 value ba).state?
  | .writeFloat bits => (ByteArray.writeFloat host bits ba).state?
  | .writeDouble bits => (ByteArray.writeDouble host bits ba).state?
  | .writeStringF16 value => (ByteArray.writeStringF16 host value ba).state?
  | .writeStringF32 value => (ByteArray.writeStringF32 host value ba).state?
  | .writeStringF64 value => (ByteArray.writeStringF64 host value ba).state?
  | .writeStringVint value => (ByteArray.writeStringVint value ba).state?
  | .writeStringWithoutLength value =>
      (ByteArray.writeStringWithoutLength value ba).state?
  | .readFint8 => (ByteArray.readFint8 ba).state?
  | .readFuint8 => (ByteArray.readFuint8 ba).state?
  | .readFint16 => (ByteArray.readFint16 host ba).state?
  | .readFuint16 => (ByteArray.readFuint16 host ba).state?
  | .readFint32 => (ByteArray.readFint32 host ba).state?
  | .readFuint32 => (ByteArray.readFuint32 host ba).state?
  | .readFint64 => (ByteArray.readFint64 host ba).state?
  | .readFuint64 => (ByteArray.readFuint64 host ba).state?
  | .readInt32 => (ByteArray.readInt32 ba).state?
  | .readUint32 => (ByteArray.readUint32 ba).state?
  | .readInt64 => (ByteArray.readInt64 ba).state?
  | .readUint64 => (ByteArray.readUint64 ba).state?
  | .readFloat => (ByteArray.readFloat host ba).state?
  | .readDouble => (ByteArray.readDouble host ba).state?
  | .readStringF16 => (ByteArray.readStringF16 host ba).state?
  | .readStringF32 => (ByteArray.readStringF32 host ba).state?
  | .readStringF64 => (ByteArray.readStringF64 host ba).state?
  | .readStringVint => (ByteArray.readStringVint ba).state?

/-! The primitive operations keep the invariant. -/

theorem keeps_write (source : Bytes) : Prog.Keeps Inv (write source) := by
  intro ba inv after left
  obtain ⟨written, result, spec⟩ := write_spec inv source
  rw [result] at left
  cases left
  exact spec.inv

theorem keeps_read (size : Nat) : Prog.Keeps Inv (read size) := by
  intro ba inv after left
  by_cases short : ba.getReadSize < size
  · obtain ⟨error, result⟩ := read_short ba short
    rw [result] at left
    cases left
    exact inv
  · by_cases inside : ba.position < ba.capacity
    · rw [read_spec inv (by omega) inside] at left
      cases left
      refine inv.moveTo ?_
      have := inv.position_le
      have := inv.size_le
      unfold getReadSize at short
      omega
    · -- At the end of the last node only `read 0` passes the length test,
      -- and it dereferences the null `m_cur`.
      have ended : ba.position = ba.capacity := by
        have := inv.position_le_capacity
        omega
      have empty : size = 0 := by
        have := inv.position_le
        have := inv.size_le
        unfold getReadSize at short
        omega
      subst size
      rw [read_null inv ended] at left
      cases left

theorem keeps_setPosition (v : Nat) : Prog.Keeps Inv (setPosition v) := by
  intro ba inv after left
  by_cases beyond : ba.capacity < v
  · unfold setPosition at left
    rw [if_pos beyond] at left
    cases left
    exact inv
  · rw [setPosition_spec inv (by omega)] at left
    cases left
    exact inv.moveTo (by omega)

theorem keeps_clear : Prog.Keeps Inv clear := by
  intro ba inv after left
  obtain ⟨cleared, result, spec⟩ := clear_spec inv
  rw [result] at left
  cases left
  exact spec.inv

theorem readAt_state {size position : Nat} {ba after : ByteArray}
    (left : (readAt size position ba).state? = some after) : after = ba := by
  unfold readAt at left
  split at left
  · cases left
    rfl
  · split at left
    · cases left
    · cases left
      rfl

theorem keeps_readAt (size position : Nat) :
    Prog.Keeps Inv (readAt size position) := by
  intro ba inv after left
  rw [readAt_state left]
  exact inv

theorem keeps_toString : Prog.Keeps Inv toString := by
  intro ba inv after left
  rw [toString_spec inv] at left
  cases left
  exact inv

theorem keeps_getReadBuffers (len : Nat) :
    Prog.Keeps Inv (getReadBuffers len) := by
  intro ba inv after left
  simp only [getReadBuffers] at left
  repeat' split at left
  all_goals cases left
  all_goals exact inv

theorem keeps_getReadBuffersAt (len position : Nat) :
    Prog.Keeps Inv (getReadBuffersAt len position) := by
  intro ba inv after left
  simp only [getReadBuffersAt] at left
  repeat' split at left
  all_goals cases left
  all_goals exact inv

theorem keeps_getWriteBuffers (len : Nat) :
    Prog.Keeps Inv (getWriteBuffers len) := by
  intro ba inv after left
  simp only [getWriteBuffers] at left
  repeat' split at left
  all_goals cases left
  · exact inv
  · exact (addCapacity_grown inv len).inv

theorem keeps_setIsLittleEndian (val : Bool) :
    Prog.Keeps Inv (setIsLittleEndian val) := by
  intro ba inv after left
  cases left
  exact .of_cursor inv.base_pos inv.root_present inv.position_le inv.size_le
    inv.uniform inv.capacity_eq inv.cursor

/-! The typed operations keep it because they are built from `write` and
`read`. -/

section Typed

variable (host : Host)

theorem keeps_writeFixed (width value : Nat) :
    Prog.Keeps Inv (writeFixed host width value) :=
  Prog.keeps_bind (Prog.keeps_get Inv) fun _ => keeps_write _

theorem keeps_readFixed (width : Nat) :
    Prog.Keeps Inv (readFixed host width) :=
  Prog.keeps_bind (keeps_read width) fun _ =>
    Prog.keeps_bind (Prog.keeps_get Inv) fun _ =>
      Prog.keeps_ite (Prog.keeps_pure Inv _) (Prog.keeps_pure Inv _)

theorem keeps_readFuint8 : Prog.Keeps Inv readFuint8 :=
  Prog.keeps_bind (keeps_read 1) fun _ => Prog.keeps_pure Inv _

theorem keeps_readVarint (bits : Nat) (shifts : List Nat) (result : Nat) :
    Prog.Keeps Inv (readVarint bits shifts result) := by
  induction shifts generalizing result with
  | nil => exact Prog.keeps_pure Inv result
  | cons i shifts ih =>
      exact Prog.keeps_bind keeps_readFuint8 fun b =>
        Prog.keeps_ite (Prog.keeps_pure Inv _) (ih _)

theorem keeps_then_pure {program : Method α} (kept : Prog.Keeps Inv program)
    (convert : α → β) :
    Prog.Keeps Inv (program >>= fun value => pure (convert value)) :=
  Prog.keeps_bind kept fun _ => Prog.keeps_pure Inv _

theorem keeps_readUint32 : Prog.Keeps Inv readUint32 :=
  keeps_then_pure (keeps_readVarint 32 _ 0) _

theorem keeps_readUint64 : Prog.Keeps Inv readUint64 :=
  keeps_then_pure (keeps_readVarint 64 _ 0) _

theorem keeps_writeString {prefixed : Method Unit}
    (kept : Prog.Keeps Inv prefixed) (value : Bytes) :
    Prog.Keeps Inv (prefixed >>= fun _ => write value) :=
  Prog.keeps_bind kept fun _ => keeps_write value

theorem keeps_readString {length : Method α}
    (kept : Prog.Keeps Inv length) (count : α → Nat) :
    Prog.Keeps Inv (length >>= fun len => read (count len)) :=
  Prog.keeps_bind kept fun _ => keeps_read _

end Typed

theorem Op.after_inv (host : Host) {ba : ByteArray} (inv : ba.Inv) (op : Op)
    {after : ByteArray} (left : op.after host ba = some after) : after.Inv := by
  cases op with
  | write source => exact keeps_write source inv left
  | read size => exact keeps_read size inv left
  | readAt size position => exact keeps_readAt size position inv left
  | setPosition v => exact keeps_setPosition v inv left
  | clear => exact keeps_clear inv left
  | toString => exact keeps_toString inv left
  | getReadBuffers len => exact keeps_getReadBuffers len inv left
  | getReadBuffersAt len position =>
      exact keeps_getReadBuffersAt len position inv left
  | getWriteBuffers len => exact keeps_getWriteBuffers len inv left
  | setIsLittleEndian val => exact keeps_setIsLittleEndian val inv left
  | writeFint8 value => exact keeps_write _ inv left
  | writeFuint8 value => exact keeps_write _ inv left
  | writeFint16 value => exact keeps_writeFixed host 2 _ inv left
  | writeFuint16 value => exact keeps_writeFixed host 2 _ inv left
  | writeFint32 value => exact keeps_writeFixed host 4 _ inv left
  | writeFuint32 value => exact keeps_writeFixed host 4 _ inv left
  | writeFint64 value => exact keeps_writeFixed host 8 _ inv left
  | writeFuint64 value => exact keeps_writeFixed host 8 _ inv left
  | writeInt32 value => exact keeps_write _ inv left
  | writeUint32 value => exact keeps_write _ inv left
  | writeInt64 value => exact keeps_write _ inv left
  | writeUint64 value => exact keeps_write _ inv left
  | writeFloat bits => exact keeps_writeFixed host 4 _ inv left
  | writeDouble bits => exact keeps_writeFixed host 8 _ inv left
  | writeStringF16 value =>
      exact keeps_writeString (keeps_writeFixed host 2 _) value inv left
  | writeStringF32 value =>
      exact keeps_writeString (keeps_writeFixed host 4 _) value inv left
  | writeStringF64 value =>
      exact keeps_writeString (keeps_writeFixed host 8 _) value inv left
  | writeStringVint value =>
      exact keeps_writeString (keeps_write _) value inv left
  | writeStringWithoutLength value => exact keeps_write value inv left
  | readFint8 => exact keeps_then_pure keeps_readFuint8 _ inv left
  | readFuint8 => exact keeps_readFuint8 inv left
  | readFint16 => exact keeps_then_pure (keeps_readFixed host 2) _ inv left
  | readFuint16 => exact keeps_then_pure (keeps_readFixed host 2) _ inv left
  | readFint32 => exact keeps_then_pure (keeps_readFixed host 4) _ inv left
  | readFuint32 => exact keeps_then_pure (keeps_readFixed host 4) _ inv left
  | readFint64 => exact keeps_then_pure (keeps_readFixed host 8) _ inv left
  | readFuint64 => exact keeps_then_pure (keeps_readFixed host 8) _ inv left
  | readInt32 => exact keeps_then_pure keeps_readUint32 _ inv left
  | readUint32 => exact keeps_readUint32 inv left
  | readInt64 => exact keeps_then_pure keeps_readUint64 _ inv left
  | readUint64 => exact keeps_readUint64 inv left
  | readFloat => exact keeps_then_pure (keeps_readFixed host 4) _ inv left
  | readDouble => exact keeps_then_pure (keeps_readFixed host 8) _ inv left
  | readStringF16 =>
      exact keeps_readString
        (keeps_then_pure (keeps_readFixed host 2) UInt16.ofNat) _ inv left
  | readStringF32 =>
      exact keeps_readString
        (keeps_then_pure (keeps_readFixed host 4) UInt32.ofNat) _ inv left
  | readStringF64 =>
      exact keeps_readString
        (keeps_then_pure (keeps_readFixed host 8) UInt64.ofNat) _ inv left
  | readStringVint =>
      exact keeps_readString keeps_readUint64 UInt64.toNat inv left

/-- A newly constructed array with room for at least one byte. -/
inductive Constructed (host : Host) : ByteArray → Prop
  | new (heap : Nat → UInt8) (baseSize : Nat) (positive : 1 ≤ baseSize) :
      Constructed host (new host.byteOrder heap baseSize)
  | ofData (heap : Nat → UInt8) (data : Bytes) (positive : 1 ≤ data.length) :
      Constructed host (ofData host.byteOrder heap data)

theorem Constructed.inv {host : Host} {ba : ByteArray}
    (constructed : Constructed host ba) : ba.Inv := by
  cases constructed with
  | new heap baseSize positive => exact inv_new host.byteOrder heap positive
  | ofData heap data positive => exact inv_ofData host.byteOrder heap positive

/-- The states any sequence of calls reaches from a constructor. -/
def Reachable (host : Host) : ByteArray → Prop :=
  Reach (Constructed host) (StepOf fun ba op => Op.after host ba op)

theorem reachable_inv {host : Host} {ba : ByteArray}
    (reachable : Reachable host ba) : ba.Inv :=
  Reach.invariant (fun _ constructed => constructed.inv)
    (fun _ op _ inv left => op.after_inv host inv left) reachable

theorem representation_invariant {host : Host} {ba : ByteArray}
    (reachable : Reachable host ba) :
    ba.position ≤ ba.size ∧ ba.size ≤ ba.capacity ∧
      (∀ node ∈ ba.root, node.size = ba.baseSize) ∧
      ba.capacity = ba.baseSize * ba.root.length ∧
      (ba.cur = none ↔ ba.position = ba.capacity) ∧
      ∀ index, ba.cur = some index →
        index < ba.root.length ∧ index = ba.position / ba.baseSize := by
  have inv := reachable_inv reachable
  refine ⟨inv.position_le, inv.size_le, inv.node_size, inv.capacity_eq,
    inv.cur_null, ?_⟩
  intro index current
  exact inv.cur_index index current

/-- Three bytes fill the first node of two and half of the second, and a read
that throws leaves them there. -/
theorem representation_invariant_two_nodes :
    ∃ ba : ByteArray, ba.root.length = 2 ∧ ba.cur = some 1 ∧ ba.position = 3 ∧
      ba.position ≤ ba.size ∧ ba.size ≤ ba.capacity ∧
      (∀ node ∈ ba.root, node.size = ba.baseSize) ∧
      ba.capacity = ba.baseSize * ba.root.length ∧
      (ba.cur = none ↔ ba.position = ba.capacity) ∧
      ∀ index, ba.cur = some index →
        index < ba.root.length ∧ index = ba.position / ba.baseSize := by
  have started : Reachable ⟨.little, .little⟩ (new .little (fun _ => 0) 2) :=
    .start _ (.new (fun _ => 0) 2 (by decide))
  obtain ⟨ba, ran, nodes, current, position⟩ : ∃ ba : ByteArray,
      exec (fun ba op => Op.after ⟨.little, .little⟩ ba op)
        (new .little (fun _ => 0) 2) [.write [1, 2, 3], .read 1] = some ba ∧
      ba.root.length = 2 ∧ ba.cur = some 1 ∧ ba.position = 3 := by
    simp only [exec, Op.after]
    exact ⟨_, rfl, rfl, rfl, rfl⟩
  exact ⟨ba, nodes, current, position,
    representation_invariant (reach_exec started ran)⟩

end ByteArray

end Sylar
