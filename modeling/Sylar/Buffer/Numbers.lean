import Sylar.Buffer.Content
import Sylar.Data.Zigzag

namespace Sylar

open Logic Data

/-! The typed operations for numbers, in an array of either byte order on a host
of either byte order. -/

theorem toBitVec_encodeZigzag32 (v : Int32) :
    (encodeZigzag32 v).toBitVec = zigzag v.toBitVec := by
  have sign : v < 0 ↔ v.toBitVec.msb = true := by
    rw [Int32.lt_iff_toBitVec_slt, ← BitVec.slt_zero_eq_msb]
    rfl
  unfold encodeZigzag32 zigzag
  simp only [sign]
  split <;> rfl

theorem toBitVec_decodeZigzag32 (v : UInt32) :
    (decodeZigzag32 v).toBitVec = unzigzag v.toBitVec := by
  have shifted : (v >>> 1).toUInt64.toUInt32 = v >>> 1 :=
    UInt32.toUInt32_toUInt64 _
  unfold decodeZigzag32 unzigzag
  change UInt32.toBitVec (UInt64.toUInt32 _) = _
  rw [UInt64.toUInt32_xor, shifted, UInt64.toUInt32_sub]
  simp

theorem toBitVec_encodeZigzag64 (v : Int64) :
    (encodeZigzag64 v).toBitVec = zigzag v.toBitVec := by
  have sign : v < 0 ↔ v.toBitVec.msb = true := by
    rw [Int64.lt_iff_toBitVec_slt, ← BitVec.slt_zero_eq_msb]
    rfl
  unfold encodeZigzag64 zigzag
  simp only [sign]
  split
  · rfl
  · rw [← shiftLeft_one_eq]
    rfl

theorem toBitVec_decodeZigzag64 (v : UInt64) :
    (decodeZigzag64 v).toBitVec = unzigzag v.toBitVec := by
  unfold decodeZigzag64 unzigzag
  simp

theorem decodeZigzag32_encodeZigzag32 (v : Int32) :
    decodeZigzag32 (encodeZigzag32 v) = v := by
  apply Int32.toBitVec.inj
  rw [toBitVec_decodeZigzag32, toBitVec_encodeZigzag32, unzigzag_zigzag]

theorem decodeZigzag64_encodeZigzag64 (v : Int64) :
    decodeZigzag64 (encodeZigzag64 v) = v := by
  apply Int64.toBitVec.inj
  rw [toBitVec_decodeZigzag64, toBitVec_encodeZigzag64, unzigzag_zigzag]

/-! Varints: seven bits a byte, the lowest first. -/

theorem varintBytes_length {value groups : Nat} (some : 0 < groups)
    (small : value < 128 ^ groups) : (varintBytes value).length ≤ groups := by
  induction groups generalizing value with
  | zero => cases some
  | succ groups ih =>
      unfold varintBytes
      split
      · simp
      · rename_i large
        rw [List.length_cons]
        have rest : value / 0x80 < 128 ^ groups := by
          rw [Nat.div_lt_iff_lt_mul (by decide), ← Nat.pow_succ]
          exact small
        rcases Nat.eq_zero_or_pos groups with rfl | more
        · simp only [Nat.pow_zero] at rest
          omega
        · exact Nat.succ_le_succ (ih more rest)

theorem continued {low : Nat} (small : low < 0x80) :
    ¬(UInt8.ofNat low ||| 0x80 : UInt8) < 0x80 ∧
      ((UInt8.ofNat low ||| 0x80 : UInt8) &&& 0x7f).toNat = low := by
  have all : ∀ low : Fin 0x80,
      ¬(UInt8.ofNat low ||| 0x80 : UInt8) < 0x80 ∧
        ((UInt8.ofNat low ||| 0x80 : UInt8) &&& 0x7f).toNat = low := by decide
  exact all ⟨low, small⟩

theorem or_shifted {result bits shift group : Nat} (below : result < 2 ^ shift)
    (fits : group * 2 ^ shift < 2 ^ bits) :
    result ||| (group <<< shift) % 2 ^ bits = result + group * 2 ^ shift := by
  rw [Nat.shiftLeft_eq, Nat.mod_eq_of_lt fits, Nat.or_comm, ← Nat.shiftLeft_eq,
    ← Nat.shiftLeft_add_eq_or_of_lt below, Nat.add_comm, Nat.shiftLeft_eq]

namespace ByteArray

namespace Cursor

variable {order : Endian} {capacity position : Nat} {rest : Bytes}
  {ba : ByteArray}

/-- The loop reads the groups that are left on top of the `result` below
`shift`. -/
theorem readVarint {bits groups shift value result : Nat}
    (below : result < 2 ^ shift) (fits : value * 2 ^ shift < 2 ^ bits)
    (some : 0 < groups) (small : value < 128 ^ groups)
    (cursor : Cursor order capacity position (varintBytes value ++ rest) ba) :
    ∃ after, ByteArray.readVarint bits (List.range' shift groups 7) result ba =
        .done (result + value * 2 ^ shift) after ∧
      Cursor order capacity (position + (varintBytes value).length) rest
        after := by
  induction groups generalizing shift value result position ba with
  | zero => cases some
  | succ groups ih =>
      rw [List.range'_succ]
      unfold ByteArray.readVarint
      unfold varintBytes at cursor ⊢
      split at cursor
      · rename_i last
        obtain ⟨after, read, moved⟩ := cursor.readFuint8
        have byte : (UInt8.ofNat value).toNat = value := by
          rw [UInt8.toNat_ofNat']
          omega
        have ends : UInt8.ofNat value < 0x80 := by
          rw [UInt8.lt_iff_toNat_lt, byte]
          exact last
        refine ⟨after, ?_, ?_⟩
        · rw [Prog.bind_done read, if_pos ends, byte, or_shifted below fits]
          rfl
        · rw [if_pos last]
          exact moved
      · rename_i more
        obtain ⟨middle, read, moved⟩ := cursor.readFuint8
        have low : value % 0x80 < 0x80 := Nat.mod_lt _ (by decide)
        obtain ⟨goes, group⟩ := continued low
        have parts : value % 0x80 * 2 ^ shift + value / 0x80 * 2 ^ (shift + 7) =
            value * 2 ^ shift := by
          rw [Nat.pow_add, show 2 ^ 7 = 0x80 from rfl, Nat.mul_comm (2 ^ shift),
            ← Nat.mul_assoc, ← Nat.add_mul, Nat.mul_comm (value / 0x80),
            Nat.mod_add_div]
        have rest' : value / 0x80 < 128 ^ groups := by
          rw [Nat.div_lt_iff_lt_mul (by decide), ← Nat.pow_succ]
          exact small
        have several : 0 < groups := by
          rcases Nat.eq_zero_or_pos groups with rfl | several
          · simp only [Nat.pow_zero] at rest'
            omega
          · exact several
        have above : result + value % 0x80 * 2 ^ shift < 2 ^ (shift + 7) := by
          have := Nat.mul_le_mul_right (2 ^ shift) (Nat.le_of_lt_succ low)
          rw [Nat.pow_add, show 2 ^ 7 = 0x80 from rfl]
          omega
        obtain ⟨after, looped, finished⟩ :=
          ih above (by omega) several rest' moved
        refine ⟨after, ?_, ?_⟩
        · rw [Prog.bind_done read, if_neg goes, group,
            or_shifted below (by omega), looped, Nat.add_assoc, parts]
        · rw [if_neg more, List.length_cons, Nat.add_comm _ 1, ← Nat.add_assoc]
          exact finished

theorem readUint32 {value : UInt32}
    (cursor : Cursor order capacity position
      (varintBytes value.toNat ++ rest) ba) :
    ∃ after, ByteArray.readUint32 ba = .done value after ∧
      Cursor order capacity (position + (varintBytes value.toNat).length) rest
        after := by
  have small := value.toNat_lt
  obtain ⟨after, read, moved⟩ := @readVarint _ _ _ _ _ 32 5 0 value.toNat 0
    (by decide) (by omega) (by decide) (by omega) cursor
  refine ⟨after, ?_, moved⟩
  unfold ByteArray.readUint32
  rw [show [0, 7, 14, 21, 28] = List.range' 0 5 7 from rfl, Prog.bind_done read,
    Nat.zero_add, Nat.pow_zero, Nat.mul_one, UInt32.ofNat_toNat]
  rfl

theorem readUint64 {value : UInt64}
    (cursor : Cursor order capacity position
      (varintBytes value.toNat ++ rest) ba) :
    ∃ after, ByteArray.readUint64 ba = .done value after ∧
      Cursor order capacity (position + (varintBytes value.toNat).length) rest
        after := by
  have small := value.toNat_lt
  obtain ⟨after, read, moved⟩ := @readVarint _ _ _ _ _ 64 10 0 value.toNat 0
    (by decide) (by omega) (by decide) (by omega) cursor
  refine ⟨after, ?_, moved⟩
  unfold ByteArray.readUint64
  rw [show [0, 7, 14, 21, 28, 35, 42, 49, 56, 63] = List.range' 0 10 7 from rfl,
    Prog.bind_done read, Nat.zero_add, Nat.pow_zero, Nat.mul_one,
    UInt64.ofNat_toNat]
  rfl

theorem readInt32 {value : Int32}
    (cursor : Cursor order capacity position
      (varintBytes (encodeZigzag32 value).toNat ++ rest) ba) :
    ∃ after, ByteArray.readInt32 ba = .done value after ∧
      Cursor order capacity
        (position + (varintBytes (encodeZigzag32 value).toNat).length) rest
        after := by
  obtain ⟨after, read, moved⟩ := cursor.readUint32
  refine ⟨after, ?_, moved⟩
  unfold ByteArray.readInt32
  rw [Prog.bind_done read, decodeZigzag32_encodeZigzag32]
  rfl

theorem readInt64 {value : Int64}
    (cursor : Cursor order capacity position
      (varintBytes (encodeZigzag64 value).toNat ++ rest) ba) :
    ∃ after, ByteArray.readInt64 ba = .done value after ∧
      Cursor order capacity
        (position + (varintBytes (encodeZigzag64 value).toNat).length) rest
        after := by
  obtain ⟨after, read, moved⟩ := cursor.readUint64
  refine ⟨after, ?_, moved⟩
  unfold ByteArray.readInt64
  rw [Prog.bind_done read, decodeZigzag64_encodeZigzag64]
  rfl

end Cursor

/-! A list of numbers, each with its own writer and reader. -/

/-- A call of one of the writers; floating-point numbers as their bits. -/
inductive Number
  | fint8 (value : Int8)
  | fuint8 (value : UInt8)
  | fint16 (value : Int16)
  | fuint16 (value : UInt16)
  | fint32 (value : Int32)
  | fuint32 (value : UInt32)
  | fint64 (value : Int64)
  | fuint64 (value : UInt64)
  | int32 (value : Int32)
  | uint32 (value : UInt32)
  | int64 (value : Int64)
  | uint64 (value : UInt64)
  | float (bits : UInt32)
  | double (bits : UInt64)
  deriving DecidableEq

inductive Reader
  | fint8
  | fuint8
  | fint16
  | fuint16
  | fint32
  | fuint32
  | fint64
  | fuint64
  | int32
  | uint32
  | int64
  | uint64
  | float
  | double

/-- The matching reader. -/
def Number.reader : Number → Reader
  | .fint8 _ => .fint8
  | .fuint8 _ => .fuint8
  | .fint16 _ => .fint16
  | .fuint16 _ => .fuint16
  | .fint32 _ => .fint32
  | .fuint32 _ => .fuint32
  | .fint64 _ => .fint64
  | .fuint64 _ => .fuint64
  | .int32 _ => .int32
  | .uint32 _ => .uint32
  | .int64 _ => .int64
  | .uint64 _ => .uint64
  | .float _ => .float
  | .double _ => .double

section Runs

variable (host : Host)

def Number.write : Number → Method Unit
  | .fint8 value => writeFint8 value
  | .fuint8 value => writeFuint8 value
  | .fint16 value => writeFint16 host value
  | .fuint16 value => writeFuint16 host value
  | .fint32 value => writeFint32 host value
  | .fuint32 value => writeFuint32 host value
  | .fint64 value => writeFint64 host value
  | .fuint64 value => writeFuint64 host value
  | .int32 value => writeInt32 value
  | .uint32 value => writeUint32 value
  | .int64 value => writeInt64 value
  | .uint64 value => writeUint64 value
  | .float bits => writeFloat host bits
  | .double bits => writeDouble host bits

def Reader.read : Reader → Method Number
  | .fint8 => do pure (.fint8 (← readFint8))
  | .fuint8 => do pure (.fuint8 (← readFuint8))
  | .fint16 => do pure (.fint16 (← readFint16 host))
  | .fuint16 => do pure (.fuint16 (← readFuint16 host))
  | .fint32 => do pure (.fint32 (← readFint32 host))
  | .fuint32 => do pure (.fuint32 (← readFuint32 host))
  | .fint64 => do pure (.fint64 (← readFint64 host))
  | .fuint64 => do pure (.fuint64 (← readFuint64 host))
  | .int32 => do pure (.int32 (← readInt32))
  | .uint32 => do pure (.uint32 (← readUint32))
  | .int64 => do pure (.int64 (← readInt64))
  | .uint64 => do pure (.uint64 (← readUint64))
  | .float => do pure (.float (← readFloat host))
  | .double => do pure (.double (← readDouble host))

def writeAll : List Number → Method Unit
  | [] => pure ()
  | number :: numbers => do
      number.write host
      writeAll numbers

def readAll : List Reader → Method (List Number)
  | [] => pure []
  | reader :: readers => do
      let number ← reader.read host
      let numbers ← readAll readers
      pure (number :: numbers)

def Number.bytes (order : Endian) : Number → Bytes
  | .fint8 value => [value.toUInt8]
  | .fuint8 value => [value]
  | .fint16 value => fixedBytes host order 2 value.toUInt16.toNat
  | .fuint16 value => fixedBytes host order 2 value.toNat
  | .fint32 value => fixedBytes host order 4 value.toUInt32.toNat
  | .fuint32 value => fixedBytes host order 4 value.toNat
  | .fint64 value => fixedBytes host order 8 value.toUInt64.toNat
  | .fuint64 value => fixedBytes host order 8 value.toNat
  | .int32 value => varintBytes (encodeZigzag32 value).toNat
  | .uint32 value => varintBytes value.toNat
  | .int64 value => varintBytes (encodeZigzag64 value).toNat
  | .uint64 value => varintBytes value.toNat
  | .float bits => fixedBytes host order 4 bits.toNat
  | .double bits => fixedBytes host order 8 bits.toNat

end Runs

variable {host : Host} {order : Endian}

theorem Number.write_appends (number : Number) :
    Appends order (number.write host) (number.bytes host order) () := by
  cases number with
  | fint8 value => exact Appends.write [value.toUInt8]
  | fuint8 value => exact Appends.write [value]
  | fint16 value => exact .writeFixed_any host order 2 _
  | fuint16 value => exact .writeFixed_any host order 2 _
  | fint32 value => exact .writeFixed_any host order 4 _
  | fuint32 value => exact .writeFixed_any host order 4 _
  | fint64 value => exact .writeFixed_any host order 8 _
  | fuint64 value => exact .writeFixed_any host order 8 _
  | int32 value => exact .write _
  | uint32 value => exact .write _
  | int64 value => exact .write _
  | uint64 value => exact .write _
  | float bits => exact .writeFixed_any host order 4 _
  | double bits => exact .writeFixed_any host order 8 _

theorem writeAll_appends (numbers : List Number) :
    Appends order (writeAll host numbers)
      (numbers.flatMap (Number.bytes host order)) () := by
  induction numbers with
  | nil => exact .pure ()
  | cons number numbers ih =>
      rw [List.flatMap_cons]
      exact .bind number.write_appends ih

namespace Cursor

variable {capacity position : Nat} {rest : Bytes} {ba : ByteArray}

/-- What a reader makes of a number of a fixed width. -/
theorem readFixed_map {width value : Nat} (positive : 0 < width)
    (small : value < 256 ^ width) (convert : Nat → α)
    (cursor : Cursor order capacity position
      (fixedBytes host order width value ++ rest) ba) :
    ∃ after, (ByteArray.readFixed host width >>= fun value =>
        pure (convert value)) ba = .done (convert value) after ∧
      Cursor order capacity
        (position + (fixedBytes host order width value).length) rest after := by
  obtain ⟨after, read, moved⟩ := cursor.readFixed_any positive small
  rw [fixedBytes_length]
  exact ⟨after, Prog.bind_done read, moved⟩

theorem readNumber {number : Number}
    (cursor : Cursor order capacity position
      (number.bytes host order ++ rest) ba) :
    ∃ after, number.reader.read host ba = .done number after ∧
      Cursor order capacity (position + (number.bytes host order).length) rest
        after := by
  cases number with
  | fint8 value =>
      obtain ⟨after, read, moved⟩ := cursor.readFuint8
      exact ⟨after, Prog.bind_done (Prog.bind_done read), moved⟩
  | fuint8 value =>
      obtain ⟨after, read, moved⟩ := cursor.readFuint8
      exact ⟨after, Prog.bind_done read, moved⟩
  | fint16 value =>
      obtain ⟨after, read, moved⟩ := cursor.readFixed_map (by decide)
        value.toUInt16.toNat_lt fun value => (UInt16.ofNat value).toInt16
      rw [UInt16.ofNat_toNat] at read
      exact ⟨after, Prog.bind_done read, moved⟩
  | fuint16 value =>
      obtain ⟨after, read, moved⟩ := cursor.readFixed_map (by decide)
        value.toNat_lt UInt16.ofNat
      rw [UInt16.ofNat_toNat] at read
      exact ⟨after, Prog.bind_done read, moved⟩
  | fint32 value =>
      obtain ⟨after, read, moved⟩ := cursor.readFixed_map (by decide)
        value.toUInt32.toNat_lt fun value => (UInt32.ofNat value).toInt32
      rw [UInt32.ofNat_toNat] at read
      exact ⟨after, Prog.bind_done read, moved⟩
  | fuint32 value =>
      obtain ⟨after, read, moved⟩ := cursor.readFixed_map (by decide)
        value.toNat_lt UInt32.ofNat
      rw [UInt32.ofNat_toNat] at read
      exact ⟨after, Prog.bind_done read, moved⟩
  | fint64 value =>
      obtain ⟨after, read, moved⟩ := cursor.readFixed_map (by decide)
        value.toUInt64.toNat_lt fun value => (UInt64.ofNat value).toInt64
      rw [UInt64.ofNat_toNat] at read
      exact ⟨after, Prog.bind_done read, moved⟩
  | fuint64 value =>
      obtain ⟨after, read, moved⟩ := cursor.readFixed_map (by decide)
        value.toNat_lt UInt64.ofNat
      rw [UInt64.ofNat_toNat] at read
      exact ⟨after, Prog.bind_done read, moved⟩
  | int32 value =>
      obtain ⟨after, read, moved⟩ := cursor.readInt32
      exact ⟨after, Prog.bind_done read, moved⟩
  | uint32 value =>
      obtain ⟨after, read, moved⟩ := cursor.readUint32
      exact ⟨after, Prog.bind_done read, moved⟩
  | int64 value =>
      obtain ⟨after, read, moved⟩ := cursor.readInt64
      exact ⟨after, Prog.bind_done read, moved⟩
  | uint64 value =>
      obtain ⟨after, read, moved⟩ := cursor.readUint64
      exact ⟨after, Prog.bind_done read, moved⟩
  | float bits =>
      obtain ⟨after, read, moved⟩ := cursor.readFixed_map (by decide)
        bits.toNat_lt UInt32.ofNat
      rw [UInt32.ofNat_toNat] at read
      exact ⟨after, Prog.bind_done read, moved⟩
  | double bits =>
      obtain ⟨after, read, moved⟩ := cursor.readFixed_map (by decide)
        bits.toNat_lt UInt64.ofNat
      rw [UInt64.ofNat_toNat] at read
      exact ⟨after, Prog.bind_done read, moved⟩

theorem readAll {numbers : List Number}
    (cursor : Cursor order capacity position
      (numbers.flatMap (Number.bytes host order) ++ rest) ba) :
    ∃ after, ByteArray.readAll host (numbers.map Number.reader) ba =
        .done numbers after ∧
      Cursor order capacity
        (position + (numbers.flatMap (Number.bytes host order)).length) rest
        after := by
  induction numbers generalizing position ba with
  | nil => exact ⟨ba, rfl, cursor⟩
  | cons number numbers ih =>
      rw [List.flatMap_cons, List.append_assoc] at cursor
      obtain ⟨middle, first, moved⟩ := cursor.readNumber
      obtain ⟨after, others, finished⟩ := ih moved
      refine ⟨after, ?_, ?_⟩
      · rw [List.map_cons]
        unfold ByteArray.readAll
        rw [Prog.bind_done first, Prog.bind_done others]
        rfl
      · rw [List.flatMap_cons, List.length_append, ← Nat.add_assoc]
        exact finished

end Cursor

/-- What is written to an empty array is read from its start, for every size of
its nodes, byte order, host and list of numbers; and no varint is longer than
the buffer of its writer. -/
theorem numbers_roundtrip (host : Host) (heap : Nat → UInt8) {base : Nat}
    (positive : 1 ≤ base) (little : Bool) (numbers : List Number) :
    (∃ empty written start last,
      setIsLittleEndian little (.new host.byteOrder heap base) =
        .done () empty ∧
      writeAll host numbers empty = .done () written ∧
      setPosition 0 written = .done () start ∧
      readAll host (numbers.map Number.reader) start = .done numbers last ∧
      last.position = written.size ∧ last.size = written.size) ∧
    (∀ value : UInt32, (varintBytes value.toNat).length ≤ 5) ∧
    ∀ value : UInt64, (varintBytes value.toNat).length ≤ 10 := by
  refine ⟨?_, ?_, ?_⟩
  · let order : Endian := if little then .little else .big
    have inv : (ByteArray.new order heap base).Inv := inv_new order heap positive
    obtain ⟨written, ran, appended⟩ :=
      @writeAll_appends host order numbers _ inv rfl rfl
    have start := appended.start
    rw [← List.append_nil (numbers.flatMap _)] at start
    obtain ⟨last, read, finished⟩ := start.readAll
    have total := appended.size inv
    have bound := finished.inv.position_le
    have rest := finished.inv.unread_length
    rw [finished.unread, List.length_nil, getReadSize] at rest
    have consumed : last.position = written.size := by
      rw [finished.position, total]
      rfl
    refine ⟨.new order heap base, written, written.moveTo 0, last, rfl, ran, ?_,
      read, consumed, by omega⟩
    exact setPosition_spec appended.inv (Nat.zero_le _)
  · intro value
    have small := value.toNat_lt
    exact varintBytes_length (by decide) (by omega)
  · intro value
    have small := value.toNat_lt
    exact varintBytes_length (by decide) (by omega)

/-- The least numbers, over nodes of one byte, on a host that stores numbers
the other way. -/
theorem numbers_roundtrip_least :
    ∃ empty written start last,
      setIsLittleEndian true (.new .big (fun _ => 0) 1) = .done () empty ∧
      writeAll ⟨.big, .little⟩
          [.int64 (-9223372036854775808), .fint16 (-2), .int32 (-2147483648)]
          empty = .done () written ∧
      setPosition 0 written = .done () start ∧
      readAll ⟨.big, .little⟩ [.int64, .fint16, .int32] start =
        .done [.int64 (-9223372036854775808), .fint16 (-2),
          .int32 (-2147483648)] last ∧
      last.position = written.size ∧ last.size = written.size :=
  (numbers_roundtrip ⟨.big, .little⟩ (fun _ => 0) (by decide) true
    [.int64 (-9223372036854775808), .fint16 (-2), .int32 (-2147483648)]).1

end ByteArray

end Sylar
