import Sylar.Buffer.Typed

namespace Sylar

open Data

/-! The addresses of `address.cpp`. A field of a `sockaddr` is the number the
program reads there; on the wire and in the text of an address it is the bytes
in memory that count. An operation whose behaviour is undefined is `none`. -/

structure SockaddrIn where
  sin_family : UInt16
  sin_port : UInt16
  S_addr : UInt32
  deriving DecidableEq, Repr

structure SockaddrIn6 where
  sin6_family : UInt16
  sin6_port : UInt16
  sin6_flowinfo : UInt32
  Byte : Vector UInt8 16
  sin6_scope_id : UInt32
  deriving DecidableEq, Repr

structure IPv4Address where
  m_addr : SockaddrIn
  deriving DecidableEq, Repr

structure IPv6Address where
  m_addr : SockaddrIn6
  deriving DecidableEq, Repr

def byteswapUint16 (host : Host) (value : UInt16) : UInt16 :=
  UInt16.ofNat (byteswapOnLittleEndian host 2 value.toNat)

def byteswapUint32 (host : Host) (value : UInt32) : UInt32 :=
  UInt32.ofNat (byteswapOnLittleEndian host 4 value.toNat)

theorem byteswapOnLittleEndian_lt (host : Host) {width value : Nat}
    (small : value < 256 ^ width) :
    byteswapOnLittleEndian host width value < 256 ^ width := by
  unfold byteswapOnLittleEndian
  cases host.byteOrder
  · exact swapBytes_lt width value
  · exact small

theorem byteswapUint16_toNat (host : Host) (value : UInt16) :
    (byteswapUint16 host value).toNat =
      byteswapOnLittleEndian host 2 value.toNat :=
  UInt16.toNat_ofNat_of_lt' (byteswapOnLittleEndian_lt host value.toNat_lt)

def AF_INET : UInt16 := 2

def AF_INET6 : UInt16 := 23

/-- `CreateMask` for a type of `width` bits. The `1` it shifts is an `int`, and
the difference of widths is a `size_t`. After a shift by 31 the subtraction
wraps, as the machines it is built for have it. -/
def createMask (width : Nat) (bits : UInt32) : Option (BitVec width) :=
  let shift := UInt64.ofNat width - bits.toUInt64
  if shift < 32 then
    some (((1#32 <<< shift.toNat) - 1#32).setWidth width)
  else none

namespace IPv4Address

def broadcastAddress (host : Host) (address : IPv4Address)
    (prefix_len : UInt32) : Option (Option IPv4Address) :=
  if prefix_len > 32 then some none
  else do
    let mask ← createMask 32 prefix_len
    let baddr := { address.m_addr with
      S_addr := address.m_addr.S_addr ||| byteswapUint32 host ⟨mask⟩ }
    return some ⟨baddr⟩

def networdAddress (host : Host) (address : IPv4Address)
    (prefix_len : UInt32) : Option (Option IPv4Address) :=
  if prefix_len > 32 then some none
  else do
    let mask ← createMask 32 prefix_len
    let baddr := { address.m_addr with
      S_addr := address.m_addr.S_addr &&& byteswapUint32 host ⟨mask⟩ }
    return some ⟨baddr⟩

def subnetMask (host : Host) (prefix_len : UInt32) :
    Option (Option IPv4Address) := do
  let mask ← createMask 32 prefix_len
  return some ⟨AF_INET, 0, ~~~(byteswapUint32 host ⟨mask⟩)⟩

end IPv4Address

namespace IPv6Address

/-- An access to `Byte[index]`. -/
def update (bytes : Vector UInt8 16) (index : Nat) (f : UInt8 → UInt8) :
    Option (Vector UInt8 16) :=
  if inside : index < 16 then some (bytes.set index (f bytes[index]))
  else none

/-- The loop that assigns `byte` at one index after another. -/
def fill (byte : UInt8) (bytes : Vector UInt8 16) (indices : List Nat) :
    Option (Vector UInt8 16) :=
  indices.foldlM (fun bytes index => update bytes index fun _ => byte) bytes

/-- The indices from `start` up to the last byte. -/
def after (start : Nat) : List Nat := List.range' start (16 - start)

def broadcastAddress (address : IPv6Address) (prefix_len : UInt32) :
    Option (Option IPv6Address) := do
  let mask ← createMask 8 (prefix_len % 8)
  let bytes ← update address.m_addr.Byte (prefix_len / 8).toNat (· ||| ⟨mask⟩)
  let bytes ← fill 0xff bytes (after ((prefix_len / 8).toNat + 1))
  return some ⟨{ address.m_addr with Byte := bytes }⟩

def networdAddress (address : IPv6Address) (prefix_len : UInt32) :
    Option (Option IPv6Address) := do
  let mask ← createMask 8 (prefix_len % 8)
  let bytes ← update address.m_addr.Byte (prefix_len / 8).toNat (· &&& ⟨mask⟩)
  let bytes ← fill 0x00 bytes (after ((prefix_len / 8).toNat + 1))
  return some ⟨{ address.m_addr with Byte := bytes }⟩

def subnetMask (prefix_len : UInt32) : Option (Option IPv6Address) := do
  let mask ← createMask 8 (prefix_len % 8)
  let bytes ← update (Vector.replicate 16 0) (prefix_len / 8).toNat
    fun _ => ~~~⟨mask⟩
  let bytes ← fill 0xff bytes (List.range (prefix_len / 8).toNat)
  return some ⟨⟨AF_INET6, 0, 0, bytes, 0⟩⟩

end IPv6Address

/-- The class above both kinds of address, with its virtual methods. -/
inductive IPAddress where
  | ipv4 (address : IPv4Address)
  | ipv6 (address : IPv6Address)
  deriving DecidableEq, Repr

namespace IPAddress

/-- The number of bits of an address. -/
def width : IPAddress → Nat
  | ipv4 _ => 32
  | ipv6 _ => 128

def family : IPAddress → UInt16
  | ipv4 address => address.m_addr.sin_family
  | ipv6 address => address.m_addr.sin6_family

def port : IPAddress → UInt16
  | ipv4 address => address.m_addr.sin_port
  | ipv6 address => address.m_addr.sin6_port

/-- The address as it lies in memory. -/
def bytes (host : Host) : IPAddress → Bytes
  | ipv4 address => host.store 4 address.m_addr.S_addr.toNat
  | ipv6 address => address.m_addr.Byte.toList

def broadcastAddress (host : Host) (prefix_len : UInt32) :
    IPAddress → Option (Option IPAddress)
  | ipv4 address => (address.broadcastAddress host prefix_len).map (·.map ipv4)
  | ipv6 address => (address.broadcastAddress prefix_len).map (·.map ipv6)

def networdAddress (host : Host) (prefix_len : UInt32) :
    IPAddress → Option (Option IPAddress)
  | ipv4 address => (address.networdAddress host prefix_len).map (·.map ipv4)
  | ipv6 address => (address.networdAddress prefix_len).map (·.map ipv6)

def subnetMask (host : Host) (prefix_len : UInt32) :
    IPAddress → Option (Option IPAddress)
  | ipv4 _ => (IPv4Address.subnetMask host prefix_len).map (·.map ipv4)
  | ipv6 _ => (IPv6Address.subnetMask prefix_len).map (·.map ipv6)

end IPAddress

end Sylar
