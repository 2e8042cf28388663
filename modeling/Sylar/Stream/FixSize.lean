import Sylar.Stream.Socket

namespace Sylar

open Logic Data

/-- The value of `socket.buff_size`, an `int32_t`. -/
structure BuffSize where
  value : Nat
  positive : 1 ≤ value
  small : value < 2 ^ 31

/-- The constant `g_socket_buff_size` of the client. -/
def BuffSize.client : BuffSize := ⟨1024 * 16, by decide, by decide⟩

namespace Stream

variable (env : Surroundings) (buffSize : BuffSize)

/-! The four loops. `left` bytes are still to be moved out of `length`; a
count of zero or less is returned as it is. -/

def readLoop (length : Int) (left : Nat) : Session (Int × Bytes) :=
  if 0 < left then do
    let (len, bytes) ← SocketStream.read env (min left buffSize.value)
    if len ≤ 0 then pure (len, bytes)
    else
      let (rt, rest) ← readLoop length (left - len.toNat)
      pure (rt, bytes ++ rest)
  else pure (toInt32 length, [])
termination_by left

def readByteArrayLoop (length : Int) (ba : ByteArray) (left : Nat) :
    Session (Int × ByteArray) :=
  if 0 < left then do
    let (len, ba) ← SocketStream.readByteArray env ba (min left buffSize.value)
    if len ≤ 0 then pure (len, ba)
    else readByteArrayLoop length ba (left - len.toNat)
  else pure (toInt32 length, ba)
termination_by left

def writeLoop (length : Int) (buffer : Bytes) : Session Int :=
  if 0 < buffer.length then do
    let len ← SocketStream.write env
      (buffer.take (min buffer.length buffSize.value))
    if len ≤ 0 then pure len
    else writeLoop length (buffer.drop len.toNat)
  else pure (toInt32 length)
termination_by buffer.length
decreasing_by
  rw [List.length_drop]
  omega

def writeByteArrayLoop (length : Int) (ba : ByteArray) (left : Nat) :
    Session (Int × ByteArray) :=
  if 0 < left then do
    let (len, ba) ← SocketStream.writeByteArray env ba (min left buffSize.value)
    if len ≤ 0 then pure (len, ba)
    else writeByteArrayLoop length ba (left - len.toNat)
  else pure (toInt32 length, ba)
termination_by left

/-- `readFixSize(void* buffer, size_t length)`. A `size_t` that exceeds the
`int64_t` range makes `left` negative. -/
def readFixSize (length : Int) : Session (Int × Bytes) :=
  readLoop env buffSize length length.toNat

def readFixSizeByteArray (ba : ByteArray) (length : Int) :
    Session (Int × ByteArray) :=
  readByteArrayLoop env buffSize length ba length.toNat

def writeFixSize (buffer : Bytes) : Session Int :=
  writeLoop env buffSize buffer.length buffer

def writeFixSizeByteArray (ba : ByteArray) (length : Int) :
    Session (Int × ByteArray) :=
  writeByteArrayLoop env buffSize length ba length.toNat

variable {env buffSize} {length : Int}

/-! However the calls split the bytes, a loop moves all of them. -/

theorem readLoop_spec {left : Nat} {socket : Socket}
    (connected : socket.connected = true)
    (available : left ≤ socket.transit.length) :
    ∃ calls, readLoop env buffSize length left socket =
      .done (toInt32 length, socket.transit.take left)
        (socket.took left calls) := by
  induction left using Nat.strong_induction_on generalizing socket with
  | _ left ih =>
      unfold readLoop
      split
      · rename_i more
        have chunk := buffSize.positive
        obtain ⟨count, moved, bounded, result⟩ :=
          @SocketStream.read_spec env socket connected (min left buffSize.value)
            (by omega) (by omega)
        have remaining : left - count ≤
            (socket.took count (socket.calls + 1)).transit.length := by
          rw [Socket.took_transit, List.length_drop]
          omega
        obtain ⟨calls, finished⟩ :=
          @ih (left - count) (by omega)
            (socket.took count (socket.calls + 1)) connected remaining
        refine ⟨calls, ?_⟩
        rw [Prog.bind_done result]
        simp only
        rw [if_neg (by omega), Int.toNat_natCast, Prog.bind_done finished]
        have whole : count + (left - count) = left := by omega
        simp only [Prog.pure_apply, Socket.took_transit, Socket.took_took,
          whole, ← List.take_add]
      · rename_i finished
        obtain rfl : left = 0 := by omega
        exact ⟨socket.calls, by rw [Socket.took_zero]; rfl⟩

theorem readByteArrayLoop_spec {left : Nat} {socket : Socket}
    (connected : socket.connected = true)
    (available : left ≤ socket.transit.length)
    {ba : ByteArray} (inv : ba.Inv) (ended : ba.position = ba.size) :
    ∃ after calls, readByteArrayLoop env buffSize length ba left socket =
        .done (toInt32 length, after) (socket.took left calls) ∧
      ba.Appended (socket.transit.take left) after := by
  induction left using Nat.strong_induction_on generalizing socket ba with
  | _ left ih =>
      unfold readByteArrayLoop
      split
      · rename_i more
        have chunk := buffSize.positive
        have small := buffSize.small
        obtain ⟨count, middle, moved, bounded, result, written⟩ :=
          @SocketStream.readByteArray_spec env socket connected ba inv
            (min left buffSize.value) (by omega) (by omega) (by omega)
        have remaining : left - count ≤
            (socket.took count (socket.calls + 1)).transit.length := by
          rw [Socket.took_transit, List.length_drop]
          omega
        have arrived : (socket.transit.take count).length = count := by
          rw [List.length_take]
          omega
        have last : middle.position = middle.size := by
          rw [written.position, written.size, ended]
          omega
        obtain ⟨after, calls, finished, appended⟩ :=
          @ih (left - count) (by omega)
            (socket.took count (socket.calls + 1)) connected remaining middle
            written.inv last
        have whole : count + (left - count) = left := by omega
        refine ⟨after, calls, ?_, ?_⟩
        · rw [Prog.bind_done result]
          simp only
          rw [if_neg (by omega), Int.toNat_natCast, finished,
            Socket.took_took, whole]
        · have joined := written.appended inv ended ?_ appended
          · rwa [Socket.took_transit, ← List.take_add, whole] at joined
          · rw [arrived, List.length_take]
            omega
      · rename_i finished
        obtain rfl : left = 0 := by omega
        exact ⟨ba, socket.calls, by rw [Socket.took_zero]; rfl,
          .self inv ended⟩

theorem writeLoop_spec {buffer : Bytes} {socket : Socket}
    (connected : socket.connected = true) :
    ∃ calls, writeLoop env buffSize length buffer socket =
      .done (toInt32 length) (socket.gave buffer calls) := by
  induction size : buffer.length using Nat.strong_induction_on
    generalizing socket buffer with
  | _ left ih =>
      unfold writeLoop
      split
      · rename_i more
        have chunk := buffSize.positive
        have offered : (buffer.take (min buffer.length buffSize.value)).length =
            min buffer.length buffSize.value := by
          rw [List.length_take]
          omega
        obtain ⟨count, moved, bounded, result⟩ :=
          @SocketStream.write_spec env socket connected
            (buffer.take (min buffer.length buffSize.value)) (by omega)
        rw [offered] at bounded
        rw [List.take_take, Nat.min_eq_left bounded] at result
        obtain ⟨calls, finished⟩ :=
          @ih (buffer.drop count).length (by rw [List.length_drop]; omega)
            (buffer.drop count)
            (socket.gave (buffer.take count) (socket.calls + 1)) connected rfl
        refine ⟨calls, ?_⟩
        rw [Prog.bind_done result, if_neg (by omega), Int.toNat_natCast,
          finished, Socket.gave_gave, List.take_append_drop]
      · rename_i finished
        obtain rfl : buffer = [] :=
          List.eq_nil_of_length_eq_zero (by omega)
        exact ⟨socket.calls, by rw [Socket.gave_nil]; rfl⟩

theorem writeByteArrayLoop_spec {left : Nat} {socket : Socket}
    (connected : socket.connected = true)
    {ba : ByteArray} (inv : ba.Inv) (enough : left ≤ ba.getReadSize) :
    ∃ after calls, writeByteArrayLoop env buffSize length ba left socket =
        .done (toInt32 length, after)
          (socket.gave (ba.unread.take left) calls) ∧
      after.size = ba.size := by
  induction left using Nat.strong_induction_on generalizing socket ba with
  | _ left ih =>
      unfold writeByteArrayLoop
      split
      · rename_i more
        have chunk := buffSize.positive
        have small := buffSize.small
        obtain ⟨count, moved, bounded, result⟩ :=
          @SocketStream.writeByteArray_spec env socket connected ba inv
            (min left buffSize.value) (by omega) (by omega) (by omega)
        have order := inv.position_le
        have within := inv.size_le
        unfold ByteArray.getReadSize at enough
        have stays : (if ba.size < ba.position + count then
            ba.position + count else ba.size) = ba.size := if_neg (by omega)
        obtain ⟨after, calls, finished, size⟩ :=
          @ih (left - count) (by omega)
            (socket.gave (ba.unread.take count) (socket.calls + 1)) connected
            (ba.moveTo (ba.position + count)) (inv.moveTo (by omega)) (by
              simp only [ByteArray.getReadSize, ByteArray.moveTo, stays]
              omega)
        have next : (ba.moveTo (ba.position + count)).unread =
            ba.unread.drop count := by
          simp only [ByteArray.unread, ByteArray.content, ByteArray.moveTo,
            stays, List.drop_drop]
        refine ⟨after, calls, ?_, ?_⟩
        · rw [Prog.bind_done result]
          simp only
          rw [if_neg (by omega), Int.toNat_natCast, finished,
            Socket.gave_gave, next, ← List.take_add,
            show count + (left - count) = left by omega]
        · rw [size]
          exact stays
      · rename_i finished
        obtain rfl : left = 0 := by omega
        exact ⟨ba, socket.calls,
          by rw [List.take_zero, Socket.gave_nil]; rfl, rfl⟩

variable {count : Nat} {socket : Socket}

theorem readFixSize_spec (connected : socket.connected = true)
    (small : count < 2 ^ 31) (available : count ≤ socket.transit.length) :
    ∃ calls, readFixSize env buffSize count socket =
      .done ((count : Int), socket.transit.take count)
        (socket.took count calls) := by
  obtain ⟨calls, finished⟩ :=
    @readLoop_spec env buffSize count count socket connected available
  rw [toInt32_of_small small] at finished
  exact ⟨calls, finished⟩

theorem readFixSizeByteArray_spec (connected : socket.connected = true)
    (small : count < 2 ^ 31) (available : count ≤ socket.transit.length)
    {ba : ByteArray} (inv : ba.Inv) (ended : ba.position = ba.size) :
    ∃ after calls, readFixSizeByteArray env buffSize ba count socket =
        .done ((count : Int), after) (socket.took count calls) ∧
      ba.Appended (socket.transit.take count) after := by
  obtain ⟨after, calls, finished, appended⟩ :=
    @readByteArrayLoop_spec env buffSize count count socket connected available
      ba inv ended
  rw [toInt32_of_small small] at finished
  exact ⟨after, calls, finished, appended⟩

theorem writeFixSize_spec (connected : socket.connected = true)
    {buffer : Bytes} (small : buffer.length < 2 ^ 31) :
    ∃ calls, writeFixSize env buffSize buffer socket =
      .done (buffer.length : Int) (socket.gave buffer calls) := by
  obtain ⟨calls, finished⟩ :=
    @writeLoop_spec env buffSize buffer.length buffer socket connected
  rw [toInt32_of_small small] at finished
  exact ⟨calls, finished⟩

/-- The count that is reported is an `int`. -/
theorem writeFixSizeByteArray_spec (connected : socket.connected = true)
    {ba : ByteArray} (inv : ba.Inv) :
    ∃ after calls, writeFixSizeByteArray env buffSize ba ba.getReadSize socket =
        .done (toInt32 ba.getReadSize, after) (socket.gave ba.unread calls) ∧
      after.size = ba.size := by
  obtain ⟨after, calls, finished, size⟩ :=
    @writeByteArrayLoop_spec env buffSize ba.getReadSize ba.getReadSize socket
      connected ba inv (Nat.le_refl _)
  rw [List.take_of_length_le inv.unread_length.le] at finished
  exact ⟨after, calls, finished, size⟩

end Stream

end Sylar
