import Sylar.Rock.Framing

namespace Sylar

open Logic Data

/-! A connection that is cut. The receiver still gets the bytes before the cut,
and then every call of `recv` returns 0. -/

namespace SocketStream

variable {env : Surroundings} {socket : Socket} {length : Nat}

/-- A call returns 0 only when nothing is left. -/
theorem recv_any (env : Surroundings) (connected : socket.connected = true)
    (positive : 0 < length) :
    ∃ count, count ≤ length ∧ count ≤ socket.transit.length ∧
      (0 < socket.transit.length → 0 < count) ∧
      Socket.recv env length socket =
        .done ((count : Int), socket.transit.take count)
          (socket.took count (socket.calls + 1)) := by
  have bounded := env.share_le socket.calls (min length socket.transit.length)
  refine ⟨env.share socket.calls (min length socket.transit.length), by omega,
    by omega, ?_, ?_⟩
  · intro more
    apply env.share_pos
    omega
  · simp only [Socket.recv, connected, if_true, Socket.took]

theorem read_any (connected : socket.connected = true) (positive : 0 < length) :
    ∃ count, count ≤ length ∧ count ≤ socket.transit.length ∧
      (0 < socket.transit.length → 0 < count) ∧
      read env length socket =
        .done ((count : Int), socket.transit.take count)
          (socket.took count (socket.calls + 1)) := by
  obtain ⟨count, asked, held, moved, received⟩ :=
    recv_any env connected positive
  refine ⟨count, asked, held, moved, ?_⟩
  unfold read
  rw [Prog.bind_done (isConnected_true connected)]
  exact received

theorem readByteArray_any (connected : socket.connected = true)
    {ba : ByteArray} (inv : ba.Inv) (positive : 0 < length)
    (small : length < 2 ^ 32) :
    ∃ count after, count ≤ length ∧ count ≤ socket.transit.length ∧
      (0 < socket.transit.length → 0 < count) ∧
      readByteArray env ba length socket =
        .done ((count : Int), after) (socket.took count (socket.calls + 1)) ∧
      (0 < count → after.Inv) := by
  obtain ⟨grown, iovs, reserved, growth, regions⟩ :=
    ByteArray.getWriteBuffers_spec inv positive small
  obtain ⟨count, asked, held, moved, received⟩ :=
    recv_any env connected positive
  have arrived : (socket.transit.take count).length = count :=
    List.length_take_of_le held
  obtain ⟨filled, written⟩ :=
    growth.received inv regions (arrived.le.trans asked)
  have room := growth.room inv
  have position := growth.position
  rw [arrived, ← growth.position] at written
  rcases Nat.eq_zero_or_pos count with none | some
  · refine ⟨count, grown.received iovs (socket.transit.take count), asked, held,
      moved, ?_, ?_⟩
    · unfold readByteArray
      rw [Prog.bind_done (isConnected_true connected), Bool.not_true,
        if_neg Bool.false_ne_true, Prog.bind_done (Prog.on_done socket reserved)]
      simp only
      rw [regions.totalLen_eq, Prog.bind_done received]
      simp only
      rw [if_neg (by omega)]
      rfl
    · intro more
      omega
  · refine ⟨count, _, asked, held, moved, ?_, fun _ => written.inv⟩
    have target : grown.position + count ≤ grown.capacity := by omega
    unfold readByteArray
    rw [Prog.bind_done (isConnected_true connected), Bool.not_true,
      if_neg Bool.false_ne_true, Prog.bind_done (Prog.on_done socket reserved)]
    simp only
    rw [regions.totalLen_eq, Prog.bind_done received]
    exact follow_spec filled some target

end SocketStream

namespace Stream

variable {env : Surroundings} {buffSize : BuffSize} {length : Int}

theorem readLoop_short {left : Nat} {socket : Socket}
    (connected : socket.connected = true)
    (short : socket.transit.length < left) :
    ∃ rt bytes calls, rt ≤ 0 ∧
      readLoop env buffSize length left socket =
        .done (rt, bytes) { socket with transit := [], calls := calls } := by
  induction left using Nat.strong_induction_on generalizing socket with
  | _ left ih =>
      have chunk := buffSize.positive
      obtain ⟨count, asked, held, moved, result⟩ :=
        @SocketStream.read_any env socket (min left buffSize.value) connected
          (by omega)
      unfold readLoop
      rw [if_pos (by omega), Prog.bind_done result]
      simp only
      rcases Nat.eq_zero_or_pos socket.transit.length with drained | more
      · obtain rfl : count = 0 := by omega
        rw [if_pos (by omega)]
        have empty := List.eq_nil_of_length_eq_zero drained
        refine ⟨0, [], socket.calls + 1, le_refl 0, ?_⟩
        simp [Socket.took, empty]
      · obtain ⟨rt, bytes, calls, failed, finished⟩ :=
          @ih (left - count) (by have := moved more; omega)
            (socket.took count (socket.calls + 1)) connected (by
              rw [Socket.took_transit, List.length_drop]
              have := moved more
              omega)
        rw [if_neg (by have := moved more; omega), Int.toNat_natCast,
          Prog.bind_done finished]
        exact ⟨rt, _, calls, failed, rfl⟩

theorem readByteArrayLoop_short {left : Nat} {socket : Socket}
    (connected : socket.connected = true)
    (short : socket.transit.length < left) {ba : ByteArray} (inv : ba.Inv) :
    ∃ rt after calls, rt ≤ 0 ∧
      readByteArrayLoop env buffSize length ba left socket =
        .done (rt, after) { socket with transit := [], calls := calls } := by
  induction left using Nat.strong_induction_on generalizing socket ba with
  | _ left ih =>
      have chunk := buffSize.positive
      have small := buffSize.small
      obtain ⟨count, middle, asked, held, moved, result, kept⟩ :=
        @SocketStream.readByteArray_any env socket (min left buffSize.value)
          connected ba inv (by omega) (by omega)
      unfold readByteArrayLoop
      rw [if_pos (by omega), Prog.bind_done result]
      simp only
      rcases Nat.eq_zero_or_pos socket.transit.length with drained | more
      · obtain rfl : count = 0 := by omega
        rw [if_pos (by omega)]
        have empty := List.eq_nil_of_length_eq_zero drained
        refine ⟨0, middle, socket.calls + 1, le_refl 0, ?_⟩
        simp [Socket.took, empty]
      · obtain ⟨rt, after, calls, failed, finished⟩ :=
          @ih (left - count) (by have := moved more; omega)
            (socket.took count (socket.calls + 1)) connected (by
              rw [Socket.took_transit, List.length_drop]
              have := moved more
              omega) middle (kept (moved more))
        rw [if_neg (by have := moved more; omega), Int.toNat_natCast, finished]
        exact ⟨rt, after, calls, failed, rfl⟩

end Stream

namespace RockMessageDecoder

variable {peer : Peer} {env : Surroundings} {host : Host} {gzip : Gzip}
  {socket : Socket}

theorem parseFrom_short (connected : socket.connected = true)
    {payload : Bytes} (positive : 0 < payload.length)
    (small : payload.length < 2 ^ 31)
    (plain : payload.length < peer.gzipMinLength.toNat) {kept : Nat}
    (cut : kept < (frame host payload).length)
    (transit : socket.transit = (frame host payload).take kept) :
    ∃ calls, parseFrom peer env host gzip socket =
      .done none { socket with transit := [], calls := calls } := by
  have length : (plainHeader payload).length.toNat = payload.length :=
    UInt32.toNat_ofNat_of_lt' (show payload.length < 2 ^ 32 by omega)
  have below : ¬peer.gzipMinLength ≤ (plainHeader payload).length := by
    rw [UInt32.le_iff_toNat_le, length]
    omega
  rw [frame_length] at cut
  have held : socket.transit.length = kept := by
    rw [transit, List.length_take, frame_length]
    omega
  unfold parseFrom
  rcases Nat.lt_or_ge kept RockMsgHeader.sizeof with inHeader | inBody
  · obtain ⟨rt, raw, calls, failed, read⟩ :=
      @Stream.readLoop_short env peer.buffSize RockMsgHeader.sizeof
        RockMsgHeader.sizeof socket connected (by omega)
    refine ⟨calls, Prog.catchAll_done ?_⟩
    change (Stream.readFixSize env peer.buffSize RockMsgHeader.sizeof >>= _)
      socket = _
    unfold Stream.readFixSize
    rw [Int.toNat_natCast, Prog.bind_done read]
    simp only
    rw [if_pos failed]
    rfl
  · have split : socket.transit =
        ((plainHeader payload).swapped host).bytes host ++
          payload.take (kept - RockMsgHeader.sizeof) := by
      rw [transit, frame, List.take_append, RockMsgHeader.bytes_length,
        List.take_of_length_le (by rw [RockMsgHeader.bytes_length]; exact inBody)]
    obtain ⟨first, header⟩ :=
      @readHeader peer env host socket (plainHeader payload) _ connected split
    obtain ⟨rt, after, calls, failed, read⟩ :=
      @Stream.readByteArrayLoop_short env peer.buffSize payload.length
        payload.length
        { socket with
          transit := payload.take (kept - RockMsgHeader.sizeof)
          calls := first } connected (by
            rw [List.length_take]
            omega)
        (ByteArray.new host.byteOrder (env.heap first) defaultBaseSize)
        (ByteArray.inv_new host.byteOrder (env.heap first) (by decide))
    refine ⟨calls, Prog.catchAll_done ?_⟩
    rw [Prog.bind_done header]
    simp only
    rw [if_neg (by decide), RockMsgHeader.ofBytes_bytes,
      if_neg (not_not.mpr (show ((plainHeader payload).swapped host).magic =
        RockMsgHeader.s_rock_magic from rfl)),
      if_neg (not_not.mpr (show ((plainHeader payload).swapped host).version =
        0x1 from rfl)),
      RockMsgHeader.swapped_swapped, if_neg below,
      Prog.bind_done (Prog.get_apply _), length, toInt32_of_small small]
    unfold Stream.readFixSizeByteArray
    rw [Int.toNat_natCast, Prog.bind_done read]
    simp only
    rw [if_pos failed]
    rfl

/-- The messages whose frames are whole within the first `kept` bytes. -/
def arrived (host : Host) : Nat → List Message → List Message
  | _, [] => []
  | kept, message :: messages =>
      if (frame host (message.payload host)).length ≤ kept then
        message :: arrived host
          (kept - (frame host (message.payload host)).length) messages
      else []

theorem arrived_prefix (host : Host) (messages : List Message) (kept : Nat) :
    arrived host kept messages <+: messages := by
  induction messages generalizing kept with
  | nil => exact List.prefix_rfl
  | cons message messages ih =>
      unfold arrived
      split
      · exact (List.prefix_cons_inj message).mpr (ih _)
      · exact List.nil_prefix

/-- The body of the message is read through a valid `m_cur`. -/
def Readable (host : Host) (message : Message) : Prop :=
  message.body ≠ [] ∨ (message.payload host).length % defaultBaseSize ≠ 0

theorem parseFrom_drained (connected : socket.connected = true)
    (drained : socket.transit = []) :
    ∃ calls, parseFrom peer env host gzip socket =
      .done none { socket with transit := [], calls := calls } := by
  obtain ⟨rt, raw, calls, failed, read⟩ :=
    @Stream.readLoop_short env peer.buffSize RockMsgHeader.sizeof
      RockMsgHeader.sizeof socket connected (by
        rw [drained]
        decide)
  refine ⟨calls, ?_⟩
  unfold parseFrom Stream.readFixSize
  apply Prog.catchAll_done
  rw [Int.toNat_natCast, Prog.bind_done read]
  simp only
  rw [if_pos failed]
  rfl

theorem parseAll_drained (connected : socket.connected = true)
    (drained : socket.transit = []) (count : Nat) :
    ∃ calls, parseAll peer env host gzip count socket =
      .done (List.replicate count none)
        { socket with transit := [], calls := calls } := by
  induction count generalizing socket with
  | zero =>
      refine ⟨socket.calls, ?_⟩
      rw [← drained]
      rfl
  | succ count ih =>
      obtain ⟨first, parsed⟩ :=
        @parseFrom_drained peer env host gzip socket connected drained
      obtain ⟨calls, rest⟩ :=
        @ih { socket with transit := [], calls := first } connected rfl
      refine ⟨calls, ?_⟩
      simp only [parseAll]
      rw [Prog.bind_done parsed, Prog.bind_done rest]
      rfl

/-- The receiver gets the messages that had left whole before the cut, and then
only null. -/
theorem parseAll_cut (peer : Peer) (env : Surroundings) (host : Host)
    (gzip : Gzip) (messages : List Message)
    (small : ∀ message ∈ messages, (message.payload host).length < 2 ^ 31)
    (plain : ∀ message ∈ messages,
      (message.payload host).length < peer.gzipMinLength.toNat)
    (readable : ∀ message ∈ messages, Readable host message) (kept more : Nat)
    (connected : socket.connected = true)
    (transit : socket.transit = (frames host messages).take kept) :
    ∃ calls,
      parseAll peer env host gzip
          ((arrived host kept messages).length + (more + 1)) socket =
        .done
          ((arrived host kept messages).map some ++
            List.replicate (more + 1) none)
          { socket with transit := [], calls := calls } := by
  induction messages generalizing socket kept with
  | nil =>
      rw [frames, List.flatMap_nil, List.take_nil] at transit
      rw [arrived, List.length_nil, Nat.zero_add]
      exact parseAll_drained connected transit (more + 1)
  | cons message messages ih =>
      have size : frames host (message :: messages) =
          frame host (message.payload host) ++ frames host messages := rfl
      rw [size] at transit
      rcases Nat.lt_or_ge kept (frame host (message.payload host)).length
        with inside | whole
      · rw [List.take_append_of_le_length inside.le] at transit
        obtain ⟨first, parsed⟩ :=
          @parseFrom_short peer env host gzip socket connected _
            (message.payload_pos host) (small message (by simp))
            (plain message (by simp)) kept inside transit
        obtain ⟨calls, rest⟩ :=
          @parseAll_drained peer env host gzip
            { socket with transit := [], calls := first } connected rfl more
        refine ⟨calls, ?_⟩
        rw [arrived, if_neg (by omega), List.length_nil, Nat.zero_add]
        unfold parseAll
        rw [Prog.bind_done parsed, Prog.bind_done rest]
        rfl
      · rw [List.take_append, List.take_of_length_le whole] at transit
        obtain ⟨first, parsed⟩ :=
          @parseFrom_message peer env host gzip socket message _ connected transit
            (small message (by simp)) (plain message (by simp))
            (readable message (by simp))
        obtain ⟨calls, rest⟩ :=
          @ih { socket with
              transit := (frames host messages).take
                (kept - (frame host (message.payload host)).length)
              calls := first }
            (fun other member => small other (by simp [member]))
            (fun other member => plain other (by simp [member]))
            (fun other member => readable other (by simp [member]))
            (kept - (frame host (message.payload host)).length) connected rfl
        refine ⟨calls, ?_⟩
        rw [arrived, if_pos whole, List.length_cons, Nat.add_right_comm]
        unfold parseAll
        rw [Prog.bind_done parsed, Prog.bind_done rest]
        rfl

/-- A connection that is cut after any number of bytes, inside a header or a
body too, delivers a prefix of what was sent, made up of those messages that had
left whole. -/
theorem cut_delivers_prefix (env : Surroundings) (host : Host) (gzip : Gzip)
    (server : Peer) (messages : List Message)
    (outgoing : ∀ message ∈ messages, message.getType ≠ Message.RESPONSE)
    (plain : ∀ message ∈ messages, Plain host .client server message)
    (kept more : Nat) :
    ∃ rts sent received,
      serializeAll .client env host gzip messages ⟨true, [], 0⟩ =
        .done rts sent ∧
      parseAll server env host gzip
          ((arrived host kept messages).length + (more + 1))
          { sent with transit := sent.transit.take kept } =
        .done
          ((arrived host kept messages).map some ++
            List.replicate (more + 1) none) received ∧
      arrived host kept messages <+: messages ∧ received.transit = [] := by
  have small : ∀ message ∈ messages,
      (message.payload host).length < 2 ^ 31 :=
    fun message member => client_small (plain message member)
  obtain ⟨calls, sent⟩ :=
    @serializeAll_spec .client env host gzip ⟨true, [], 0⟩ messages rfl small
      fun message member => (plain message member).1
  obtain ⟨later, received⟩ :=
    @parseAll_cut { (Socket.gave ⟨true, [], 0⟩ (frames host messages) calls) with
        transit := (frames host messages).take kept } server env host gzip
      messages small (fun message member => (plain message member).2)
      (fun message member => inside_of_outgoing (outgoing message member)) kept
      more rfl rfl
  exact ⟨_, _, _, sent, received, arrived_prefix host messages kept, rfl⟩

theorem bytewise_pos (_ limit : Nat) (some : 0 < limit) : 0 < min 1 limit := by
  omega

theorem bytewise_le (_ limit : Nat) : min 1 limit ≤ limit := by omega

/-- Every call moves one byte. -/
def bytewise : Surroundings :=
  ⟨fun _ limit => min 1 limit, fun _ _ => 0, bytewise_pos, bytewise_le⟩

/-- A request and four bytes of the header after it. -/
theorem cut_delivers_prefix_header :
    ∃ rts sent received,
      serializeAll .client bytewise ⟨.little, .little⟩ (fun _ _ => .writeError)
          [.request ⟨⟨7, 1⟩, ⟨[]⟩⟩, .notify ⟨⟨3⟩, ⟨[1, 2]⟩⟩] ⟨true, [], 0⟩ =
        .done rts sent ∧
      parseAll .client bytewise ⟨.little, .little⟩ (fun _ _ => .writeError) 2
          { sent with transit := sent.transit.take 25 } =
        .done [some (.request ⟨⟨7, 1⟩, ⟨[]⟩⟩), none] received ∧
      received.transit = [] := by
  obtain ⟨rts, sent, received, first, second, -, drained⟩ :=
    cut_delivers_prefix bytewise ⟨.little, .little⟩ (fun _ _ => .writeError)
      .client [.request ⟨⟨7, 1⟩, ⟨[]⟩⟩, .notify ⟨⟨3⟩, ⟨[1, 2]⟩⟩] (by decide)
      (by decide) 25 0
  exact ⟨rts, sent, received, first, second, drained⟩

end RockMessageDecoder

end Sylar
