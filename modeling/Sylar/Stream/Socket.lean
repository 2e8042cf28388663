import Sylar.Buffer.Content

namespace Sylar

open Logic Data

/-! One direction of a connection, as the stream calls of its two ends move it
along. -/

/-- What a run meets from outside: call number `call` on the connection moves
`share call limit` of the `limit` bytes it could move, and memory allocated
before it holds `heap call`. -/
structure Surroundings where
  share : Nat → Nat → Nat
  heap : Nat → Nat → UInt8
  share_pos : ∀ call limit, 0 < limit → 0 < share call limit
  share_le : ∀ call limit, share call limit ≤ limit

/-- `transit` holds the bytes sent and not received yet. A receive that comes
before a later send finds a shorter `transit`, which is one of the ways in
which `share` can be chosen. -/
structure Socket where
  connected : Bool
  transit : Bytes
  calls : Nat

abbrev Session (α : Type) := Prog Socket Exception α

namespace Socket

variable (env : Surroundings)

/-- `recv` into memory of `asked` bytes: the count, and the bytes stored. -/
def recv (asked : Nat) : Session (Int × Bytes) := fun socket =>
  if socket.connected then
    let count := env.share socket.calls (min asked socket.transit.length)
    .done (count, socket.transit.take count)
      { socket with
        transit := socket.transit.drop count
        calls := socket.calls + 1 }
  else .done (-1, []) socket

/-- `send` from memory that holds `bytes`. -/
def send (bytes : Bytes) : Session Int := fun socket =>
  if socket.connected then
    let count := env.share socket.calls bytes.length
    .done count
      { socket with
        transit := socket.transit ++ bytes.take count
        calls := socket.calls + 1 }
  else .done (-1) socket

def took (socket : Socket) (count calls : Nat) : Socket :=
  { socket with transit := socket.transit.drop count, calls := calls }

def gave (socket : Socket) (bytes : Bytes) (calls : Nat) : Socket :=
  { socket with transit := socket.transit ++ bytes, calls := calls }

@[simp] theorem took_connected (socket : Socket) (count calls : Nat) :
    (socket.took count calls).connected = socket.connected := rfl

@[simp] theorem took_transit (socket : Socket) (count calls : Nat) :
    (socket.took count calls).transit = socket.transit.drop count := rfl

@[simp] theorem took_calls (socket : Socket) (count calls : Nat) :
    (socket.took count calls).calls = calls := rfl

@[simp] theorem gave_connected (socket : Socket) (bytes : Bytes) (calls : Nat) :
    (socket.gave bytes calls).connected = socket.connected := rfl

@[simp] theorem gave_transit (socket : Socket) (bytes : Bytes) (calls : Nat) :
    (socket.gave bytes calls).transit = socket.transit ++ bytes := rfl

@[simp] theorem took_took (socket : Socket) (first second calls later : Nat) :
    (socket.took first calls).took second later =
      socket.took (first + second) later := by
  simp only [took, List.drop_drop]

@[simp] theorem gave_gave (socket : Socket) (first second : Bytes)
    (calls later : Nat) :
    (socket.gave first calls).gave second later =
      socket.gave (first ++ second) later := by
  simp only [gave, List.append_assoc]

@[simp] theorem gave_nil (socket : Socket) :
    socket.gave [] socket.calls = socket := by
  simp only [gave, List.append_nil]

@[simp] theorem took_zero (socket : Socket) :
    socket.took 0 socket.calls = socket := by
  simp only [took, List.drop_zero]

variable {env} {socket : Socket}

theorem recv_spec (connected : socket.connected = true) {asked : Nat}
    (positive : 0 < asked) (available : asked ≤ socket.transit.length) :
    ∃ count, 0 < count ∧ count ≤ asked ∧
      recv env asked socket =
        .done ((count : Int), socket.transit.take count)
          (socket.took count (socket.calls + 1)) := by
  have moved := env.share_pos socket.calls asked positive
  have bounded := env.share_le socket.calls asked
  refine ⟨_, moved, bounded, ?_⟩
  simp only [recv, connected, if_true, Nat.min_eq_left available, took]

theorem send_spec (connected : socket.connected = true) {bytes : Bytes}
    (positive : 0 < bytes.length) :
    ∃ count, 0 < count ∧ count ≤ bytes.length ∧
      send env bytes socket =
        .done (count : Int)
          (socket.gave (bytes.take count) (socket.calls + 1)) := by
  have moved := env.share_pos socket.calls bytes.length positive
  have bounded := env.share_le socket.calls bytes.length
  refine ⟨_, moved, bounded, ?_⟩
  simp only [send, connected, if_true, gave]

end Socket

namespace SocketStream

variable (env : Surroundings)

def isConnected : Session Bool := do
  let socket ← Prog.get
  pure socket.connected

def read (length : Nat) : Session (Int × Bytes) := do
  if !(← isConnected) then pure (-1, [])
  else Socket.recv env length

def readByteArray (ba : ByteArray) (length : Nat) :
    Session (Int × ByteArray) := do
  if !(← isConnected) then pure (-1, ba)
  else
    let ((iovs, _), ba) ← Prog.on ba (ByteArray.getWriteBuffers length)
    let (rt, bytes) ← Socket.recv env (totalLen iovs)
    let ba := { ba with root := scatter ba.root iovs bytes }
    if 0 < rt then
      let (_, ba) ← Prog.on ba
        (ByteArray.setPosition (ba.getPosition + rt.toNat))
      pure (rt, ba)
    else pure (rt, ba)

def write (buffer : Bytes) : Session Int := do
  if !(← isConnected) then pure (-1)
  else Socket.send env buffer

def writeByteArray (ba : ByteArray) (length : Nat) :
    Session (Int × ByteArray) := do
  if !(← isConnected) then pure (-1, ba)
  else
    let ((iovs, _), ba) ← Prog.on ba (ByteArray.getReadBuffers length)
    let rt ← Socket.send env (gather ba.root iovs)
    if 0 < rt then
      let (_, ba) ← Prog.on ba
        (ByteArray.setPosition (ba.getPosition + rt.toNat))
      pure (rt, ba)
    else pure (rt, ba)

variable {env} {socket : Socket}

theorem isConnected_true (connected : socket.connected = true) :
    isConnected socket = .done true socket := by
  unfold isConnected
  rw [Prog.bind_done (Prog.get_apply socket), connected]
  rfl

theorem follow_spec {ba : ByteArray} (inv : ba.Inv) {count : Nat}
    (moved : 0 < count) (target : ba.position + count ≤ ba.capacity) :
    (if 0 < (count : Int) then do
        let (_, ba) ← Prog.on ba
          (ByteArray.setPosition (ba.getPosition + (count : Int).toNat))
        pure ((count : Int), ba)
      else pure ((count : Int), ba) : Session (Int × ByteArray)) socket =
      .done ((count : Int), ba.moveTo (ba.position + count)) socket := by
  rw [if_pos (Int.natCast_pos.mpr moved), Int.toNat_natCast]
  exact Prog.bind_done
    (Prog.on_done socket (ByteArray.setPosition_spec inv target))

theorem read_spec (connected : socket.connected = true) {length : Nat}
    (positive : 0 < length) (available : length ≤ socket.transit.length) :
    ∃ count, 0 < count ∧ count ≤ length ∧
      read env length socket =
        .done ((count : Int), socket.transit.take count)
          (socket.took count (socket.calls + 1)) := by
  obtain ⟨count, moved, bounded, received⟩ :=
    @Socket.recv_spec env socket connected length positive available
  refine ⟨count, moved, bounded, ?_⟩
  unfold read
  rw [Prog.bind_done (isConnected_true connected)]
  exact received

theorem write_spec (connected : socket.connected = true) {buffer : Bytes}
    (positive : 0 < buffer.length) :
    ∃ count, 0 < count ∧ count ≤ buffer.length ∧
      write env buffer socket =
        .done (count : Int)
          (socket.gave (buffer.take count) (socket.calls + 1)) := by
  obtain ⟨count, moved, bounded, sent⟩ :=
    @Socket.send_spec env socket connected buffer positive
  refine ⟨count, moved, bounded, ?_⟩
  unfold write
  rw [Prog.bind_done (isConnected_true connected)]
  exact sent

/-- What arrives is stored at the position and the position follows it. The
array may have grown for all the bytes asked for. -/
theorem readByteArray_spec (connected : socket.connected = true)
    {ba : ByteArray} (inv : ba.Inv) {length : Nat} (positive : 0 < length)
    (small : length < 2 ^ 32) (available : length ≤ socket.transit.length) :
    ∃ count after, 0 < count ∧ count ≤ length ∧
      readByteArray env ba length socket =
        .done ((count : Int), after) (socket.took count (socket.calls + 1)) ∧
      ba.Written (socket.transit.take count) length after := by
  obtain ⟨grown, iovs, reserved, growth, regions⟩ :=
    ByteArray.getWriteBuffers_spec inv positive small
  obtain ⟨count, moved, bounded, received⟩ :=
    @Socket.recv_spec env socket connected length positive available
  have arrived : (socket.transit.take count).length = count := by
    rw [List.length_take]
    omega
  obtain ⟨filled, written⟩ := growth.received inv regions (arrived.le.trans bounded)
  have room := growth.room inv
  have position := growth.position
  have target : grown.position + count ≤ grown.capacity := by omega
  rw [arrived, ← growth.position] at written
  refine ⟨count, _, moved, bounded, ?_, written⟩
  unfold readByteArray
  rw [Prog.bind_done (isConnected_true connected), Bool.not_true,
    if_neg Bool.false_ne_true, Prog.bind_done (Prog.on_done socket reserved)]
  simp only
  rw [regions.totalLen_eq, Prog.bind_done received]
  exact follow_spec filled moved target

theorem writeByteArray_spec (connected : socket.connected = true)
    {ba : ByteArray} (inv : ba.Inv) {length : Nat} (positive : 0 < length)
    (small : length < 2 ^ 32) (enough : length ≤ ba.getReadSize) :
    ∃ count, 0 < count ∧ count ≤ length ∧
      writeByteArray env ba length socket =
        .done ((count : Int), ba.moveTo (ba.position + count))
          (socket.gave (ba.unread.take count) (socket.calls + 1)) := by
  obtain ⟨iovs, reserved, regions⟩ :=
    ByteArray.getReadBuffers_spec inv positive enough small
  have order := inv.position_le
  have within := inv.size_le
  have sizes : ba.position + length ≤ ba.size := by
    unfold ByteArray.getReadSize at enough
    omega
  have gathered : gather ba.root iovs = ba.unread.take length := by
    rw [gather_spec inv.uniform regions, ba.unread_eq, List.take_take,
      Nat.min_eq_left (by omega)]
  have offered : (gather ba.root iovs).length = length := by
    rw [gathered, List.length_take, inv.unread_length]
    omega
  obtain ⟨count, moved, bounded, sent⟩ :=
    @Socket.send_spec env socket connected (gather ba.root iovs) (by omega)
  rw [offered] at bounded
  rw [gathered, List.take_take, Nat.min_eq_left bounded] at sent
  refine ⟨count, moved, bounded, ?_⟩
  unfold writeByteArray
  rw [Prog.bind_done (isConnected_true connected), Bool.not_true,
    if_neg Bool.false_ne_true, Prog.bind_done (Prog.on_done socket reserved)]
  simp only
  rw [gathered, Prog.bind_done sent]
  exact follow_spec inv moved (by omega)

end SocketStream

end Sylar
