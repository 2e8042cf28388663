import Sylar.Buffer.Gather
import Sylar.Buffer.Typed

namespace Sylar

open Logic Data

namespace ByteArray

/-! The array as a sequence of bytes that is appended to at its end and then
read from its start. -/

def content (ba : ByteArray) : Bytes := (memory ba.root).take ba.size

/-- The bytes from the position up to `m_size`. -/
def unread (ba : ByteArray) : Bytes := ba.content.drop ba.position

theorem Inv.content_length {ba : ByteArray} (inv : ba.Inv) :
    ba.content.length = ba.size := by
  rw [content, List.length_take, inv.memory_length]
  exact Nat.min_eq_left inv.size_le

theorem Inv.unread_length {ba : ByteArray} (inv : ba.Inv) :
    ba.unread.length = ba.getReadSize := by
  rw [unread, List.length_drop, inv.content_length, getReadSize]

theorem unread_eq (ba : ByteArray) :
    ba.unread =
      ((memory ba.root).drop ba.position).take (ba.size - ba.position) := by
  rw [unread, content, List.drop_take]

@[simp] theorem moveTo_zero_size (ba : ByteArray) :
    (ba.moveTo 0).size = ba.size := by
  simp [moveTo]

@[simp] theorem moveTo_zero_unread (ba : ByteArray) :
    (ba.moveTo 0).unread = ba.content := by
  simp only [unread, content, moveTo_zero_size]
  rfl

/-- `bytes` was added at the end, with the growth this takes. -/
structure Appended (ba : ByteArray) (bytes : Bytes) (after : ByteArray) :
    Prop where
  inv : after.Inv
  baseSize : after.baseSize = ba.baseSize
  endian : after.endian = ba.endian
  ended : after.position = after.size
  content : after.content = ba.content ++ bytes
  capacity : after.capacity =
    max ba.capacity (roundUp ba.baseSize (ba.size + bytes.length))

namespace Appended

variable {ba middle after : ByteArray}

theorem size (appended : ba.Appended bytes after) (inv : ba.Inv) :
    after.size = ba.size + bytes.length := by
  rw [← appended.inv.content_length, appended.content, List.length_append,
    inv.content_length]

theorem self (inv : ba.Inv) (ended : ba.position = ba.size) :
    ba.Appended [] ba where
  inv := inv
  baseSize := rfl
  endian := rfl
  ended := ended
  content := (List.append_nil _).symm
  capacity := by
    have fits := inv.size_le
    exact (ended ▸ (@grown_self ba inv 0 (by omega)).capacity)

end Appended

theorem roundUp_mono {base left right : Nat} (positive : 0 < base)
    (le : left ≤ right) : roundUp base left ≤ roundUp base right :=
  roundUp_le positive (le.trans (le_roundUp positive right))

/-- A store at the end followed by an append. The growth of the store may go
beyond its bytes, but not beyond those of the append. -/
theorem Written.appended {ba middle after : ByteArray} {source bytes : Bytes}
    {room : Nat} (inv : ba.Inv) (ended : ba.position = ba.size)
    (written : ba.Written source room middle)
    (upper : room ≤ source.length + bytes.length)
    (rest : middle.Appended bytes after) :
    ba.Appended (source ++ bytes) after where
  inv := rest.inv
  baseSize := rest.baseSize.trans written.baseSize
  endian := rest.endian.trans written.endian
  ended := rest.ended
  content := by
    obtain ⟨extra, fits, stored⟩ := written.memory
    rw [rest.content, ← List.append_assoc]
    congr 1
    have within := inv.size_le
    have held := inv.memory_length
    rw [content, content, stored, written.size, ended, Nat.max_eq_right (by omega),
      List.take_add, take_blit (Nat.le_refl _), drop_take_blit (ended ▸ fits),
      List.take_append_of_le_length (by omega)]
  capacity := by
    have size : middle.size = ba.size + source.length := by
      rw [written.size, ended]
      omega
    have grows := @roundUp_mono ba.baseSize (ba.size + room)
      (ba.size + (source ++ bytes).length) inv.base_pos
      (by rw [List.length_append]; omega)
    rw [rest.capacity, written.capacity, written.baseSize, size, ended,
      Nat.add_assoc, ← List.length_append]
    omega

theorem Written.atEnd {ba after : ByteArray} {source : Bytes} (inv : ba.Inv)
    (ended : ba.position = ba.size)
    (written : ba.Written source source.length after) :
    ba.Appended source after := by
  have last : after.position = after.size := by
    rw [written.position, written.size, ended]
    omega
  have := written.appended inv ended (by simp)
    (.self written.inv last)
  rwa [List.append_nil] at this

/-- The bytes of a number of a fixed width in an array of the byte order
`order`; the reader undoes the swap, if there is one. -/
def fixedBytes (host : Host) (order : Endian) (width value : Nat) : Bytes :=
  host.store width
    (if order ≠ host.byteOrder then byteswap width value else value)

@[simp] theorem fixedBytes_length (host : Host) (order : Endian)
    (width value : Nat) :
    (fixedBytes host order width value).length = width :=
  host.store_length _ _

theorem fixedBytes_native (host : Host) (width value : Nat) :
    fixedBytes host host.byteOrder width value = host.store width value := by
  rw [fixedBytes, if_neg (not_not.mpr rfl)]

/-! Programs that only append. -/

/-- In an array of the byte order `order` whose position is at its end the
program appends `bytes`. -/
def Appends (order : Endian) (program : Method α) (bytes : Bytes) (value : α) :
    Prop :=
  ∀ ⦃ba : ByteArray⦄, ba.Inv → ba.endian = order → ba.position = ba.size →
    ∃ after, program ba = .done value after ∧ ba.Appended bytes after

namespace Appends

variable {order : Endian}

theorem pure (value : α) : Appends order (Pure.pure value) [] value := by
  intro ba inv _ ended
  exact ⟨ba, rfl, .self inv ended⟩

theorem write (source : Bytes) :
    Appends order (ByteArray.write source) source () := by
  intro ba inv _ ended
  obtain ⟨after, result, written⟩ := write_spec inv source
  exact ⟨after, result, written.atEnd inv ended⟩

theorem bind {first : Method α} {next : α → Method β} {value : α}
    (head : Appends order first left value)
    (tail : Appends order (next value) right result) :
    Appends order (first >>= next) (left ++ right) result := by
  intro ba inv byteOrder ended
  obtain ⟨middle, ran, appended⟩ := head inv byteOrder ended
  obtain ⟨after, finished, rest⟩ :=
    tail appended.inv (appended.endian.trans byteOrder) appended.ended
  refine ⟨after, ?_, {
    inv := rest.inv
    baseSize := rest.baseSize.trans appended.baseSize
    endian := rest.endian.trans appended.endian
    ended := rest.ended
    content := by
      rw [rest.content, appended.content, List.append_assoc]
    capacity := ?_ }⟩
  · rw [Prog.bind_done ran, finished]
  · have grows := @roundUp_mono ba.baseSize (ba.size + left.length)
      (ba.size + (left ++ right).length) inv.base_pos
      (by rw [List.length_append]; omega)
    rw [rest.capacity, appended.capacity, appended.baseSize,
      appended.size inv, Nat.add_assoc, ← List.length_append]
    omega

theorem map {first : Method α} {value : α} (convert : α → β)
    (head : Appends order first bytes value) :
    Appends order (first >>= fun value => Pure.pure (convert value)) bytes
      (convert value) := by
  have joined : Appends order
      (first >>= fun value => Pure.pure (convert value)) (bytes ++ [])
      (convert value) := bind head (pure (convert value))
  rwa [List.append_nil] at joined

theorem writeFuint8 (value : UInt8) :
    Appends order (ByteArray.writeFuint8 value) [value] () := write [value]

variable (host : Host)

theorem writeFixed_any (order : Endian) (width value : Nat) :
    Appends order (ByteArray.writeFixed host width value)
      (fixedBytes host order width value) () := by
  intro ba inv byteOrder ended
  obtain ⟨after, result, written⟩ :=
    @write order (fixedBytes host order width value) ba inv byteOrder ended
  refine ⟨after, ?_, written⟩
  unfold ByteArray.writeFixed
  rw [Prog.bind_done (Prog.get_apply ba), byteOrder]
  exact result

theorem writeFixed (width value : Nat) :
    Appends host.byteOrder (ByteArray.writeFixed host width value)
      (host.store width value) () := by
  rw [← fixedBytes_native]
  exact writeFixed_any host host.byteOrder width value

theorem writeFuint32 (value : UInt32) :
    Appends host.byteOrder (ByteArray.writeFuint32 host value)
      (host.store 4 value.toNat) () := writeFixed host 4 value.toNat

theorem writeStringF32 (value : Bytes) :
    Appends host.byteOrder (ByteArray.writeStringF32 host value)
      (host.store 4 (UInt32.ofNat value.length).toNat ++ value) () :=
  bind (writeFuint32 host _) (write value)

end Appends

/-! Reading back. -/

structure Cursor (order : Endian) (capacity position : Nat) (rest : Bytes)
    (ba : ByteArray) : Prop where
  inv : ba.Inv
  endian : ba.endian = order
  capacity : ba.capacity = capacity
  position : ba.position = position
  unread : ba.unread = rest

/-- A new array that was appended to, from its start. -/
theorem Appended.start {order : Endian} {heap : Nat → UInt8} {base : Nat}
    {bytes : Bytes} {after : ByteArray}
    (appended : (ByteArray.new order heap base).Appended bytes after) :
    Cursor order (max base (roundUp base bytes.length)) 0 bytes
      (after.moveTo 0) where
  inv := appended.inv.moveTo (Nat.zero_le _)
  endian := appended.endian
  capacity := by
    have := appended.capacity
    rwa [show (ByteArray.new order heap base).size + bytes.length =
      bytes.length from Nat.zero_add _] at this
  position := rfl
  unread := by
    rw [moveTo_zero_unread, appended.content]
    rfl

namespace Cursor

variable {order : Endian} {capacity position : Nat} {bytes rest : Bytes}
  {ba : ByteArray}

theorem end_le (cursor : Cursor order capacity position rest ba) :
    position + rest.length ≤ capacity := by
  have length := cursor.inv.unread_length
  have order := cursor.inv.position_le
  have within := cursor.inv.size_le
  rw [cursor.unread, getReadSize, cursor.position] at length
  rw [cursor.position] at order
  rw [cursor.capacity] at within
  omega

theorem read (cursor : Cursor order capacity position (bytes ++ rest) ba)
    (inside : position < capacity) :
    ∃ after, ByteArray.read bytes.length ba = .done bytes after ∧
      Cursor order capacity (position + bytes.length) rest after := by
  have length := cursor.inv.unread_length
  rw [cursor.unread, List.length_append, getReadSize] at length
  have within := cursor.inv.size_le
  have here := cursor.inv.position_le
  have stays : (if ba.size < ba.position + bytes.length then
      ba.position + bytes.length else ba.size) = ba.size := if_neg (by omega)
  have taken : ((memory ba.root).drop ba.position).take bytes.length = bytes := by
    have := congrArg (List.take bytes.length) cursor.unread
    rwa [unread_eq, List.take_take, Nat.min_eq_left (by omega),
      List.take_left'  rfl] at this
  refine ⟨_, (read_spec cursor.inv (by unfold getReadSize; omega)
    (by rw [cursor.position, cursor.capacity]; exact inside)).trans
      (by rw [taken]), ?_⟩
  exact {
    inv := cursor.inv.moveTo (by omega)
    endian := cursor.endian
    capacity := cursor.capacity
    position := by rw [moveTo, cursor.position]
    unread := by
      simp only [ByteArray.unread, ByteArray.content, moveTo, stays]
      rw [← List.drop_drop]
      have := congrArg (List.drop bytes.length) cursor.unread
      rwa [ByteArray.unread, List.drop_left' rfl] at this }

theorem read_nonempty
    (cursor : Cursor order capacity position (bytes ++ rest) ba)
    (nonempty : bytes ≠ []) :
    ∃ after, ByteArray.read bytes.length ba = .done bytes after ∧
      Cursor order capacity (position + bytes.length) rest after := by
  have := cursor.end_le
  have := List.length_pos_iff.mpr nonempty
  exact cursor.read (by rw [List.length_append] at *; omega)

/-- At the end of the last node `m_cur` is null, also for a read of nothing. -/
theorem read_null (cursor : Cursor order capacity capacity rest ba) :
    ByteArray.read 0 ba = .fault :=
  ByteArray.read_null cursor.inv
    (cursor.position.trans cursor.capacity.symm)

theorem readFuint8 {value : UInt8}
    (cursor : Cursor order capacity position ([value] ++ rest) ba) :
    ∃ after, ByteArray.readFuint8 ba = .done value after ∧
      Cursor order capacity (position + 1) rest after := by
  obtain ⟨after, result, moved⟩ := cursor.read_nonempty (by simp)
  exact ⟨after, Prog.bind_done result, moved⟩

variable {host : Host}

theorem readFixed_any {width value : Nat} (positive : 0 < width)
    (small : value < 256 ^ width)
    (cursor : Cursor order capacity position
      (fixedBytes host order width value ++ rest) ba) :
    ∃ after, ByteArray.readFixed host width ba = .done value after ∧
      Cursor order capacity (position + width) rest after := by
  have length := fixedBytes_length host order width value
  obtain ⟨after, result, moved⟩ := cursor.read_nonempty (by
    rw [← List.length_pos_iff, length]
    exact positive)
  rw [length] at result moved
  refine ⟨after, ?_, moved⟩
  unfold ByteArray.readFixed
  rw [Prog.bind_done result, Prog.bind_done (Prog.get_apply after), moved.endian,
    fixedBytes, Host.load_store]
  by_cases native : order = host.byteOrder
  · rw [if_pos native, if_neg (not_not.mpr native), Nat.mod_eq_of_lt small]
    rfl
  · rw [if_neg native, if_pos native]
    unfold byteswap
    rw [Nat.mod_eq_of_lt (swapBytes_lt width value), swapBytes_swapBytes small]
    rfl

theorem readFixed {width value : Nat} (positive : 0 < width)
    (small : value < 256 ^ width)
    (cursor : Cursor host.byteOrder capacity position
      (host.store width value ++ rest) ba) :
    ∃ after, ByteArray.readFixed host width ba = .done value after ∧
      Cursor host.byteOrder capacity (position + width) rest after := by
  rw [← fixedBytes_native] at cursor
  exact cursor.readFixed_any positive small

theorem readFuint32 {value : UInt32}
    (cursor : Cursor host.byteOrder capacity position
      (host.store 4 value.toNat ++ rest) ba) :
    ∃ after, ByteArray.readFuint32 host ba = .done value after ∧
      Cursor host.byteOrder capacity (position + 4) rest after := by
  obtain ⟨after, result, moved⟩ :=
    cursor.readFixed (by decide) value.toNat_lt
  refine ⟨after, ?_, moved⟩
  unfold ByteArray.readFuint32
  rw [Prog.bind_done result, UInt32.ofNat_toNat]
  rfl

theorem readStringF32 {value : Bytes} (small : value.length < 2 ^ 32)
    (cursor : Cursor host.byteOrder capacity position
      (host.store 4 (UInt32.ofNat value.length).toNat ++ (value ++ rest)) ba)
    (inside : value ≠ [] ∨ position + 4 < capacity) :
    ∃ after, ByteArray.readStringF32 host ba = .done value after ∧
      Cursor host.byteOrder capacity (position + (4 + value.length)) rest
        after := by
  obtain ⟨middle, counted, moved⟩ := cursor.readFuint32
  have place : position + 4 < capacity := by
    rcases inside with nonempty | inside
    · have := moved.end_le
      have := List.length_pos_iff.mpr nonempty
      rw [List.length_append] at *
      omega
    · exact inside
  obtain ⟨after, result, finished⟩ := moved.read place
  refine ⟨after, ?_, by rwa [← Nat.add_assoc]⟩
  unfold ByteArray.readStringF32
  rw [Prog.bind_done counted, UInt32.toNat_ofNat_of_lt' small]
  exact result

/-- An empty string whose length field fills the last node is read from a null
`m_cur`. -/
theorem readStringF32_null
    (cursor : Cursor host.byteOrder capacity position
      (host.store 4 (UInt32.ofNat 0).toNat ++ rest) ba)
    (ended : position + 4 = capacity) :
    ByteArray.readStringF32 host ba = .fault := by
  obtain ⟨middle, counted, moved⟩ := cursor.readFuint32
  rw [ended] at moved
  unfold ByteArray.readStringF32
  rw [Prog.bind_done counted]
  exact moved.read_null

end Cursor

end ByteArray

end Sylar
