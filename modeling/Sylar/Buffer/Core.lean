import Sylar.Logic.Prog
import Sylar.Data.Blit

namespace Sylar

open Logic Data

/-! The chunked byte buffer of `bytearray.cpp`. -/

abbrev Bytes := List UInt8

/-- `std::exception` with its `what()`. A backtrace appended to the text is
left out. -/
inductive Exception
  | outOfRange (what : String)
  deriving DecidableEq, Repr

inductive Endian
  | little
  | big
  deriving DecidableEq, Repr

structure Node where
  ptr : Bytes
  size : Nat
  sized : ptr.length = size

namespace Node

/-- `Node(size_t s)`: the memory comes from the heap as it is. -/
def new (size : Nat) (heap : Nat → UInt8) : Node where
  ptr := (List.range size).map heap
  size := size
  sized := by simp

def store (node : Node) (offset : Nat) (source : Bytes) : Node where
  ptr := blit node.ptr offset source
  size := node.size
  sized := by rw [blit_length, node.sized]

def load (node : Node) (offset count : Nat) : Bytes :=
  (node.ptr.drop offset).take count

@[simp] theorem store_size (node : Node) (offset : Nat) (source : Bytes) :
    (node.store offset source).size = node.size := rfl

@[simp] theorem store_ptr (node : Node) (offset : Nat) (source : Bytes) :
    (node.store offset source).ptr = blit node.ptr offset source := rfl

end Node

/-- A region of node memory handed to an overlapped call: `buf` is the address
`offset` bytes into node number `node`, `len` is a 32-bit `ULONG`. -/
structure WSABUF where
  node : Nat
  offset : Nat
  len : Nat
  deriving DecidableEq, Repr

/-- `root` is the node list from `m_root` on and `cur` the place of `m_cur` in
it, `none` for a null pointer. `heap` is what memory allocated later will hold
before it is written. -/
structure ByteArray where
  baseSize : Nat
  position : Nat
  capacity : Nat
  size : Nat
  endian : Endian
  root : List Node
  cur : Option Nat
  heap : Nat → UInt8

abbrev Method (α : Type) := Prog ByteArray Exception α

/-- Subtraction of `size_t` values. -/
def subSize (left right : Nat) : Nat :=
  if right ≤ left then left - right else 2 ^ 64 + left - right

theorem subSize_of_le {left right : Nat} (le : right ≤ left) :
    subSize left right = left - right := if_pos le

/-! The loops that walk the nodes from `m_cur` on. Each takes the nodes that
are left and reports how many times it followed `next`; `none` is a null
pointer dereferenced. -/

/-- The loop of `write` for a `source` that is not empty. -/
def writeLoop : List Node → Nat → Bytes → Option (List Node × Nat)
  | [], _, _ => none
  | node :: rest, npos, source =>
      let ncap := node.size - npos
      if source.length ≤ ncap then
        some (node.store npos source :: rest,
          if node.size = npos + source.length then 1 else 0)
      else
        (writeLoop rest 0 (source.drop ncap)).map fun (nodes, steps) =>
          (node.store npos (source.take ncap) :: nodes, steps + 1)

/-- The loop of the two `read` overloads. `m_cur->size` is read before the
first test of `size`. -/
def readLoop : List Node → Nat → Nat → Option (Bytes × Nat)
  | [], _, _ => none
  | node :: rest, npos, size =>
      let ncap := node.size - npos
      if size = 0 then
        some ([], 0)
      else if size ≤ ncap then
        some (node.load npos size, if node.size = npos + size then 1 else 0)
      else
        (readLoop rest 0 (size - ncap)).map fun (bytes, steps) =>
          (node.load npos ncap ++ bytes, steps + 1)

def seekLoop : List Node → Nat → Option Nat
  | [], _ => none
  | node :: rest, v =>
      if node.size < v then
        (seekLoop rest (v - node.size)).map (· + 1)
      else
        some (if v = node.size then 1 else 0)

/-- The loop of `getReadBuffers` and `getWriteBuffers`; `index` is the place
of the first node in the list. -/
def buffersLoop : List Node → Nat → Nat → Nat → Option (List WSABUF)
  | [], _, _, _ => none
  | node :: rest, index, npos, len =>
      let ncap := node.size - npos
      if len ≤ ncap then
        some [⟨index, npos, len % 2 ^ 32⟩]
      else
        (buffersLoop rest (index + 1) 0 (len - ncap)).map
          (⟨index, npos, ncap % 2 ^ 32⟩ :: ·)

namespace ByteArray

/-- `ByteArray(size_t base_size)`; the macro `BYTE_ORDER` is `byteOrder`. -/
def new (byteOrder : Endian) (heap : Nat → UInt8) (baseSize : Nat) :
    ByteArray where
  baseSize := baseSize
  position := 0
  capacity := baseSize
  size := 0
  endian := byteOrder
  root := [Node.new baseSize heap]
  cur := some 0
  heap := fun index => heap (baseSize + index)

/-- `ByteArray(void* data, size_t size, bool owner)` over the memory `data`. -/
def ofData (byteOrder : Endian) (heap : Nat → UInt8) (data : Bytes) :
    ByteArray where
  baseSize := data.length
  position := 0
  capacity := data.length
  size := data.length
  endian := byteOrder
  root := [⟨data, data.length, rfl⟩]
  cur := some 0
  heap := heap

def getReadSize (ba : ByteArray) : Nat := ba.size - ba.position

def getCapacity (ba : ByteArray) : Nat := ba.capacity - ba.position

def getSize (ba : ByteArray) : Nat := ba.size

def getPosition (ba : ByteArray) : Nat := ba.position

def nodeAt (ba : ByteArray) (index : Nat) : Option Nat :=
  if index < ba.root.length then some index else none

/-- The nodes from `m_cur` on, none for a null `m_cur`. -/
def nodesFrom (ba : ByteArray) : List Node :=
  match ba.cur with
  | none => []
  | some index => ba.root.drop index

def nodesBefore (ba : ByteArray) : List Node :=
  match ba.cur with
  | none => ba.root
  | some index => ba.root.take index

/-- `m_cur` after following `next` `steps` times. -/
def advance (ba : ByteArray) (steps : Nat) : Option Nat :=
  match ba.cur with
  | none => none
  | some index => ba.nodeAt (index + steps)

def newNodes (ba : ByteArray) (count : Nat) : List Node :=
  (List.range count).map fun i =>
    Node.new ba.baseSize fun index => ba.heap (i * ba.baseSize + index)

/-- `ceil(1.0 * size / m_baseSize)` is the exact quotient rounded up for the
sizes below `2 ^ 53` that a `double` holds exactly. -/
def addCapacity (ba : ByteArray) (size : Nat) : ByteArray :=
  if size = 0 then ba
  else if size ≤ ba.getCapacity then ba
  else
    let count := (size - ba.getCapacity + ba.baseSize - 1) / ba.baseSize
    { ba with
      root := ba.root ++ ba.newNodes count
      capacity := ba.capacity + count * ba.baseSize
      cur :=
        if ba.getCapacity = 0 then
          if count = 0 then none else some ba.root.length
        else ba.cur
      heap := fun index => ba.heap (count * ba.baseSize + index) }

def clear : Method Unit := fun ba =>
  .done () { ba with
    position := 0
    size := 0
    capacity := ba.baseSize
    root := ba.root.take 1
    cur := some 0 }

def write (source : Bytes) : Method Unit := fun ba =>
  if source.length = 0 then .done () ba
  else
    let ba := ba.addCapacity source.length
    match writeLoop ba.nodesFrom (ba.position % ba.baseSize) source with
    | none => .fault
    | some (nodes, steps) =>
        let position := ba.position + source.length
        .done () { ba with
          root := ba.nodesBefore ++ nodes
          cur := ba.advance steps
          position := position
          size := if ba.size < position then position else ba.size }

def read (size : Nat) : Method Bytes := fun ba =>
  if ba.getReadSize < size then
    .raise (.outOfRange ("** not enough len size=" ++ toString size ++
      " read_size=" ++ toString ba.getReadSize)) ba
  else
    match readLoop ba.nodesFrom (ba.position % ba.baseSize) size with
    | none => .fault
    | some (bytes, steps) =>
        .done bytes { ba with
          position := ba.position + size
          cur := ba.advance steps }

/-- `read(buf, size, position) const`. It starts in `m_cur`. -/
def readAt (size position : Nat) : Method Bytes := fun ba =>
  if subSize ba.size position < size then
    .raise (.outOfRange "== not enough len\n") ba
  else
    match readLoop ba.nodesFrom (position % ba.baseSize) size with
    | none => .fault
    | some (bytes, _) => .done bytes ba

def setPosition (v : Nat) : Method Unit := fun ba =>
  if ba.capacity < v then
    .raise (.outOfRange "set_position out of range") ba
  else
    match seekLoop ba.root v with
    | none => .fault
    | some steps =>
        .done () { ba with
          position := v
          size := if ba.size < v then v else ba.size
          cur := ba.nodeAt steps }

def toString : Method Bytes := fun ba =>
  if ba.getReadSize = 0 then .done [] ba
  else readAt ba.getReadSize ba.position ba

def getReadBuffers (len : Nat) : Method (List WSABUF × Nat) := fun ba =>
  let len := if ba.getReadSize < len then ba.getReadSize else len
  if len = 0 then .done ([], 0) ba
  else
    match ba.cur with
    | none => .fault
    | some index =>
        match buffersLoop ba.nodesFrom index (ba.position % ba.baseSize) len with
        | none => .fault
        | some buffers => .done (buffers, len) ba

/-- `getReadBuffers(buffers, len, position) const`. It starts in `m_root`. -/
def getReadBuffersAt (len position : Nat) : Method (List WSABUF × Nat) :=
  fun ba =>
    let len := if ba.getReadSize < len then ba.getReadSize else len
    if len = 0 then .done ([], 0) ba
    else
      let count := position / ba.baseSize
      match buffersLoop (ba.root.drop count) count (position % ba.baseSize) len with
      | none => .fault
      | some buffers => .done (buffers, len) ba

def getWriteBuffers (len : Nat) : Method (List WSABUF × Nat) := fun ba =>
  if len = 0 then .done ([], 0) ba
  else
    let ba := ba.addCapacity len
    match ba.cur with
    | none => .fault
    | some index =>
        match buffersLoop ba.nodesFrom index (ba.position % ba.baseSize) len with
        | none => .fault
        | some buffers => .done (buffers, len) ba

end ByteArray

end Sylar
