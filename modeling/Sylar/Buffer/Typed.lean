import Sylar.Data.Word
import Sylar.Buffer.Spec

namespace Sylar

open Logic Data

/-- A build for one machine: `byteOrder` is the macro `BYTE_ORDER` of
`endia.h`, `memory` the order in which the machine stores a number. -/
structure Host where
  byteOrder : Endian
  memory : Endian
  deriving DecidableEq, Repr

namespace Host

def store (host : Host) (width value : Nat) : Bytes :=
  match host.memory with
  | .little => leBytes width value
  | .big => (leBytes width value).reverse

def load (host : Host) (bytes : Bytes) : Nat :=
  match host.memory with
  | .little => ofLeBytes bytes
  | .big => ofLeBytes bytes.reverse

@[simp] theorem store_length (host : Host) (width value : Nat) :
    (host.store width value).length = width := by
  unfold store
  cases host.memory <;> simp

theorem load_store (host : Host) (width value : Nat) :
    host.load (host.store width value) = value % 256 ^ width := by
  unfold load store
  cases host.memory <;> simp [ofLeBytes_leBytes]

theorem load_lt (host : Host) (bytes : Bytes) :
    host.load bytes < 256 ^ bytes.length := by
  unfold load
  cases host.memory with
  | little => exact ofLeBytes_lt bytes
  | big =>
      rw [← bytes.length_reverse]
      exact ofLeBytes_lt bytes.reverse

end Host

/-- `byteswap` of `endia.h` for a type of `width` bytes. -/
def byteswap (width value : Nat) : Nat := swapBytes width value

def byteswapOnLittleEndian (host : Host) (width value : Nat) : Nat :=
  match host.byteOrder with
  | .big => value
  | .little => byteswap width value

/-- A number read from memory and swapped is what the bytes say on the wire,
where the build knows the machine. -/
theorem byteswapOnLittleEndian_load {host : Host}
    (matching : host.byteOrder = host.memory) (bytes : Bytes) :
    byteswapOnLittleEndian host bytes.length (host.load bytes) =
      ofLeBytes bytes.reverse := by
  unfold byteswapOnLittleEndian Host.load
  rw [matching]
  cases host.memory with
  | big => rfl
  | little => rw [byteswap, swapBytes, leBytes_ofLeBytes]

def encodeZigzag32 (v : Int32) : UInt32 :=
  if v < 0 then (-v).toUInt32 * 2 - 1 else (v * 2).toUInt32

def encodeZigzag64 (v : Int64) : UInt64 :=
  if v < 0 then (-v).toUInt64 * 2 - 1 else (v <<< 1).toUInt64

def decodeZigzag32 (v : UInt32) : Int32 :=
  ((v >>> 1).toUInt64 ^^^ (0 - (v.toUInt64 &&& 1))).toUInt32.toInt32

def decodeZigzag64 (v : UInt64) : Int64 :=
  ((v >>> 1) ^^^ (0 - (v &&& 1))).toInt64

/-- The bytes the loops of `writeUint32` and `writeUint64` put in `tmp`. -/
def varintBytes (value : Nat) : Bytes :=
  if value < 0x80 then [UInt8.ofNat value]
  else (UInt8.ofNat (value % 0x80) ||| 0x80) :: varintBytes (value / 0x80)
termination_by value
decreasing_by omega

namespace ByteArray

/-! The typed operations. A signed number and a floating-point number are
written as the bit pattern of the unsigned type of the same width. -/

def writeFixed (host : Host) (width value : Nat) : Method Unit := do
  let ba ← Prog.get
  write (host.store width
    (if ba.endian ≠ host.byteOrder then byteswap width value else value))

/-- The body the macro `XX` gives the fixed-width readers. -/
def readFixed (host : Host) (width : Nat) : Method Nat := do
  let bytes ← read width
  let ba ← Prog.get
  if ba.endian = host.byteOrder then pure (host.load bytes)
  else pure (byteswap width (host.load bytes))

def writeFint8 (value : Int8) : Method Unit := write [value.toUInt8]

def writeFuint8 (value : UInt8) : Method Unit := write [value]

def writeFint16 (host : Host) (value : Int16) : Method Unit :=
  writeFixed host 2 value.toUInt16.toNat

def writeFuint16 (host : Host) (value : UInt16) : Method Unit :=
  writeFixed host 2 value.toNat

def writeFint32 (host : Host) (value : Int32) : Method Unit :=
  writeFixed host 4 value.toUInt32.toNat

def writeFuint32 (host : Host) (value : UInt32) : Method Unit :=
  writeFixed host 4 value.toNat

def writeFint64 (host : Host) (value : Int64) : Method Unit :=
  writeFixed host 8 value.toUInt64.toNat

def writeFuint64 (host : Host) (value : UInt64) : Method Unit :=
  writeFixed host 8 value.toNat

def isLittleEndian (ba : ByteArray) : Bool := ba.endian = .little

def setIsLittleEndian (val : Bool) : Method Unit := fun ba =>
  .done () { ba with endian := if val then .little else .big }

def writeUint32 (value : UInt32) : Method Unit := write (varintBytes value.toNat)

def writeUint64 (value : UInt64) : Method Unit := write (varintBytes value.toNat)

def writeInt32 (value : Int32) : Method Unit := writeUint32 (encodeZigzag32 value)

def writeInt64 (value : Int64) : Method Unit := writeUint64 (encodeZigzag64 value)

def writeFloat (host : Host) (bits : UInt32) : Method Unit :=
  writeFuint32 host bits

def writeDouble (host : Host) (bits : UInt64) : Method Unit :=
  writeFuint64 host bits

def writeStringF16 (host : Host) (value : Bytes) : Method Unit := do
  writeFuint16 host (UInt16.ofNat value.length)
  write value

def writeStringF32 (host : Host) (value : Bytes) : Method Unit := do
  writeFuint32 host (UInt32.ofNat value.length)
  write value

def writeStringF64 (host : Host) (value : Bytes) : Method Unit := do
  writeFuint64 host (UInt64.ofNat value.length)
  write value

def writeStringVint (value : Bytes) : Method Unit := do
  writeUint64 (UInt64.ofNat value.length)
  write value

def writeStringWithoutLength (value : Bytes) : Method Unit := write value

def readFuint8 : Method UInt8 := do
  let bytes ← read 1
  pure (bytes.headD 0)

def readFint8 : Method Int8 := do
  let value ← readFuint8
  pure value.toInt8

def readFuint16 (host : Host) : Method UInt16 := do
  pure (UInt16.ofNat (← readFixed host 2))

def readFint16 (host : Host) : Method Int16 := do
  pure (UInt16.ofNat (← readFixed host 2)).toInt16

def readFuint32 (host : Host) : Method UInt32 := do
  pure (UInt32.ofNat (← readFixed host 4))

def readFint32 (host : Host) : Method Int32 := do
  pure (UInt32.ofNat (← readFixed host 4)).toInt32

def readFuint64 (host : Host) : Method UInt64 := do
  pure (UInt64.ofNat (← readFixed host 8))

def readFint64 (host : Host) : Method Int64 := do
  pure (UInt64.ofNat (← readFixed host 8)).toInt64

/-- The loop of `readUint32` and `readUint64` over the shifts that are left;
`bits` is the width of the result. -/
def readVarint (bits : Nat) : List Nat → Nat → Method Nat
  | [], result => pure result
  | i :: shifts, result => do
      let b ← readFuint8
      if b < 0x80 then
        pure (result ||| (b.toNat <<< i) % 2 ^ bits)
      else
        readVarint bits shifts
          (result ||| ((b &&& 0x7f).toNat <<< i) % 2 ^ bits)

def readUint32 : Method UInt32 := do
  pure (UInt32.ofNat (← readVarint 32 [0, 7, 14, 21, 28] 0))

def readUint64 : Method UInt64 := do
  pure (UInt64.ofNat (← readVarint 64 [0, 7, 14, 21, 28, 35, 42, 49, 56, 63] 0))

def readInt32 : Method Int32 := do
  pure (decodeZigzag32 (← readUint32))

def readInt64 : Method Int64 := do
  pure (decodeZigzag64 (← readUint64))

def readFloat (host : Host) : Method UInt32 := readFuint32 host

def readDouble (host : Host) : Method UInt64 := readFuint64 host

def readStringF16 (host : Host) : Method Bytes := do
  let len ← readFuint16 host
  read len.toNat

def readStringF32 (host : Host) : Method Bytes := do
  let len ← readFuint32 host
  read len.toNat

def readStringF64 (host : Host) : Method Bytes := do
  let len ← readFuint64 host
  read len.toNat

def readStringVint : Method Bytes := do
  let len ← readUint64
  read len.toNat

end ByteArray

end Sylar
