import Sylar.Rock.Message
import Sylar.Stream.FixSize

namespace Sylar

open Logic Data

/-! `RockMessageDecoder`. The client and the server have the same code; they
differ in where they take the two sizes from. -/

structure Peer where
  buffSize : BuffSize
  gzipMinLength : UInt32

/-- `g_rock_protocol_gzip_min_length` of the client is a constant. -/
def Peer.client : Peer := ⟨.client, 1024 * 1024 * 64⟩

/-- What one `ZlibStream` makes of an array: `write` or `flush` report an
error, or `getByteArray` has the result. -/
inductive ZlibResult
  | writeError
  | flushError
  | done (ba : ByteArray)

/-- `ZlibStream::CreateGzip(encode)` and the calls on it. -/
abbrev Gzip := Bool → ByteArray → ZlibResult

/-- `length` is the bit pattern of an `int32_t`. -/
structure RockMsgHeader where
  magic : UInt8 × UInt8
  version : UInt8
  flag : UInt8
  length : UInt32
  deriving DecidableEq, Repr

namespace RockMsgHeader

def s_rock_magic : UInt8 × UInt8 := (0x12, 0x21)

def new : RockMsgHeader := ⟨s_rock_magic, 1, 0, 0⟩

def sizeof : Nat := 8

def bytes (host : Host) (header : RockMsgHeader) : Bytes :=
  [header.magic.1, header.magic.2, header.version, header.flag] ++
    host.store 4 header.length.toNat

def ofBytes (host : Host) (raw : Bytes) : RockMsgHeader where
  magic := (raw.getD 0 0, raw.getD 1 0)
  version := raw.getD 2 0
  flag := raw.getD 3 0
  length := UInt32.ofNat (host.load (raw.drop 4))

def swapped (host : Host) (header : RockMsgHeader) : RockMsgHeader :=
  { header with
    length := UInt32.ofNat
      (byteswapOnLittleEndian host 4 header.length.toNat) }

@[simp] theorem bytes_length (host : Host) (header : RockMsgHeader) :
    (header.bytes host).length = sizeof := by
  simp [bytes, sizeof]

theorem ofBytes_bytes (host : Host) (header : RockMsgHeader) :
    ofBytes host (header.bytes host) = header := by
  unfold ofBytes bytes
  simp only [List.cons_append, List.nil_append, List.getD_cons_zero,
    List.getD_cons_succ, List.drop_succ_cons, List.drop_zero, Host.load_store]
  rw [show 256 ^ 4 = 2 ^ 32 by decide,
    Nat.mod_eq_of_lt header.length.toNat_lt, UInt32.ofNat_toNat]

theorem swapped_swapped (host : Host) (header : RockMsgHeader) :
    (header.swapped host).swapped host = header := by
  unfold swapped byteswapOnLittleEndian
  cases host.byteOrder with
  | big => simp only [UInt32.ofNat_toNat]
  | little =>
      simp only [byteswap]
      rw [UInt32.toNat_ofNat_of_lt' (swapBytes_lt 4 _),
        swapBytes_swapBytes header.length.toNat_lt, UInt32.ofNat_toNat]

end RockMsgHeader

namespace RockMessageDecoder

variable (peer : Peer) (env : Surroundings) (host : Host) (gzip : Gzip)

/-- The writes at the end of `serializeTo`. -/
def sendFrame (header : RockMsgHeader) (ba : ByteArray) : Session Int := do
  let header := header.swapped host
  let rt ← Stream.writeFixSize env peer.buffSize (header.bytes host)
  if rt ≤ 0 then pure (-3)
  else
    let (rt, ba) ← Stream.writeFixSizeByteArray env peer.buffSize ba
      ba.getReadSize
    if rt ≤ 0 then pure (-4)
    else pure (toInt32 (RockMsgHeader.sizeof + ba.getSize : Nat))

def serializeTo (message : Message) : Session Int := do
  let socket ← Prog.get
  match ← message.toByteArray host (env.heap socket.calls) with
  | none => Prog.fault
  | some ba =>
      let (_, ba) ← Prog.on ba (ByteArray.setPosition 0)
      let header :=
        { RockMsgHeader.new with length := UInt32.ofNat ba.getSize }
      if peer.gzipMinLength ≤ header.length then
        match gzip true ba with
        | .writeError => pure (-1)
        | .flushError => pure (-2)
        | .done ba =>
            sendFrame peer env host
              { header with
                flag := header.flag ||| 0x1
                length := UInt32.ofNat ba.getSize } ba
      else sendFrame peer env host header ba

def parseFrom : Session (Option Message) :=
  Prog.catchAll (do
    let (rt, raw) ← Stream.readFixSize env peer.buffSize RockMsgHeader.sizeof
    if rt ≤ 0 then pure none
    else
      let header := RockMsgHeader.ofBytes host raw
      if header.magic ≠ RockMsgHeader.s_rock_magic then pure none
      else if header.version ≠ 0x1 then pure none
      else
        let header := header.swapped host
        if peer.gzipMinLength ≤ header.length then pure none
        else
          let socket ← Prog.get
          let ba := ByteArray.new host.byteOrder (env.heap socket.calls)
            defaultBaseSize
          let (rt, ba) ← Stream.readFixSizeByteArray env peer.buffSize ba
            (toInt32 header.length.toNat)
          if rt ≤ 0 then pure none
          else
            let (_, ba) ← Prog.on ba (ByteArray.setPosition 0)
            if header.flag &&& 0x1 ≠ 0 then
              match gzip false ba with
              | .done ba =>
                  let (message, _) ← Prog.on ba
                    (Message.parseFromByteArray host)
                  pure message
              | _ => pure none
            else
              let (message, _) ← Prog.on ba (Message.parseFromByteArray host)
              pure message) (pure none)

/-! One frame on the connection. -/

/-- The header `serializeTo` sends with a payload it does not compress. -/
def plainHeader (payload : Bytes) : RockMsgHeader :=
  { RockMsgHeader.new with length := UInt32.ofNat payload.length }

def frame (payload : Bytes) : Bytes :=
  ((plainHeader payload).swapped host).bytes host ++ payload

theorem frame_length (payload : Bytes) :
    (frame host payload).length = RockMsgHeader.sizeof + payload.length := by
  rw [frame, List.length_append, RockMsgHeader.bytes_length]

variable {peer env host gzip}

theorem toByteArray_appended (host : Host) (heap : Nat → UInt8)
    (message : Message) (state : σ) :
    ∃ ba, message.toByteArray host heap state = .done (some ba) state ∧
      (ByteArray.new host.byteOrder heap defaultBaseSize).Appended
        (message.payload host) ba := by
  have inv := ByteArray.inv_new host.byteOrder heap
    (show 1 ≤ defaultBaseSize by decide)
  obtain ⟨ba, serialized, appended⟩ :=
    @Message.serialize_spec host message _ inv rfl rfl
  refine ⟨ba, ?_, appended⟩
  unfold Message.toByteArray
  rw [Prog.bind_done (Prog.on_done state serialized)]
  rfl

theorem toByteArray_spec (host : Host) (heap : Nat → UInt8) (message : Message) (state : σ) :
    ∃ ba, message.toByteArray host heap state = .done (some ba) state ∧
      ba.Inv ∧ ba.content = message.payload host := by
  obtain ⟨ba, made, appended⟩ := toByteArray_appended host heap message state
  exact ⟨ba, made, appended.inv, appended.content⟩

/-- The count that the loop reports is an `int`. -/
theorem sendFrame_any {socket : Socket} (connected : socket.connected = true)
    (header : RockMsgHeader) {ba : ByteArray} (inv : ba.Inv) :
    ∃ calls, sendFrame peer env host header ba socket =
      .done
        (if toInt32 ba.getReadSize ≤ 0 then -4
          else toInt32 (RockMsgHeader.sizeof + ba.size : Nat))
        (socket.gave ((header.swapped host).bytes host ++ ba.unread) calls) := by
  have length := RockMsgHeader.bytes_length host (header.swapped host)
  obtain ⟨first, headerSent⟩ :=
    @Stream.writeFixSize_spec env peer.buffSize socket connected
      ((header.swapped host).bytes host) (by rw [length]; decide)
  obtain ⟨after, calls, bodySent, size⟩ :=
    @Stream.writeFixSizeByteArray_spec env peer.buffSize
      (socket.gave ((header.swapped host).bytes host) first) connected ba inv
  rw [Socket.gave_gave] at bodySent
  refine ⟨calls, ?_⟩
  unfold sendFrame
  rw [Prog.bind_done headerSent, length, if_neg (by decide),
    Prog.bind_done bodySent]
  simp only
  split
  · rfl
  · rw [ByteArray.getSize, size]
    rfl

/-- Below the threshold the payload is sent as it is, whatever is reported. -/
theorem serializeTo_plain {socket : Socket}
    (connected : socket.connected = true) (message : Message)
    (below : ¬peer.gzipMinLength ≤
      UInt32.ofNat (message.payload host).length) :
    ∃ calls, serializeTo peer env host gzip message socket =
      .done
        (if toInt32 (message.payload host).length ≤ 0 then -4
          else toInt32 (frame host (message.payload host)).length)
        (socket.gave (frame host (message.payload host)) calls) := by
  obtain ⟨ba, made, inv, content⟩ :=
    toByteArray_spec host (env.heap socket.calls) message socket
  have start : (ba.moveTo 0).Inv := inv.moveTo (Nat.zero_le _)
  have size : ba.size = (message.payload host).length := by
    rw [← inv.content_length, content]
  have unread : (ba.moveTo 0).getReadSize = (message.payload host).length := by
    rw [← start.unread_length, ByteArray.moveTo_zero_unread, content]
  obtain ⟨calls, sent⟩ :=
    @sendFrame_any peer env host socket connected
      (plainHeader (message.payload host)) _ start
  rw [ByteArray.moveTo_zero_unread, content, unread, ByteArray.moveTo_zero_size,
    size, ← frame_length host] at sent
  refine ⟨calls, ?_⟩
  unfold serializeTo
  rw [Prog.bind_done (Prog.get_apply socket), Prog.bind_done made]
  simp only
  rw [Prog.bind_done (Prog.on_done socket
    (ByteArray.setPosition_spec inv (Nat.zero_le _)))]
  rw [ByteArray.getSize, ByteArray.moveTo_zero_size, size, if_neg below]
  exact sent

theorem serializeTo_spec {socket : Socket}
    (connected : socket.connected = true) (message : Message)
    (small : (message.payload host).length < 2 ^ 31)
    (plain : (message.payload host).length < peer.gzipMinLength.toNat) :
    ∃ calls, serializeTo peer env host gzip message socket =
      .done (toInt32 (frame host (message.payload host)).length)
        (socket.gave (frame host (message.payload host)) calls) := by
  have positive := message.payload_pos host
  have below : ¬peer.gzipMinLength ≤
      UInt32.ofNat (message.payload host).length := by
    rw [UInt32.le_iff_toNat_le, UInt32.toNat_ofNat_of_lt'
      (show (message.payload host).length < 2 ^ 32 by omega)]
    omega
  obtain ⟨calls, sent⟩ :=
    @serializeTo_plain peer env host gzip socket connected message below
  rw [toInt32_of_small small, if_neg (by omega)] at sent
  exact ⟨calls, sent⟩

theorem received_spec {heap : Nat → UInt8} {payload : Bytes}
    {ba : ByteArray}
    (appended : (ByteArray.new host.byteOrder heap
      defaultBaseSize).Appended payload ba) :
    ByteArray.Cursor host.byteOrder
      (max defaultBaseSize (ByteArray.roundUp defaultBaseSize payload.length)) 0
      payload (ba.moveTo 0) :=
  appended.start

/-- The end of `parseFrom`. -/
def parsePayload (host : Host) (gzip : Gzip) (flag : UInt8) (ba : ByteArray) :
    Session (Option Message) :=
  if flag &&& 0x1 ≠ 0 then
    match gzip false ba with
    | .done ba => do
        let (message, _) ← Prog.on ba (Message.parseFromByteArray host)
        pure message
    | _ => pure none
  else do
    let (message, _) ← Prog.on ba (Message.parseFromByteArray host)
    pure message

section Header

variable {socket : Socket} {header : RockMsgHeader} {body : Bytes}

theorem readHeader (connected : socket.connected = true)
    (transit : socket.transit = (header.swapped host).bytes host ++ body) :
    ∃ calls, Stream.readFixSize env peer.buffSize RockMsgHeader.sizeof socket =
      .done ((RockMsgHeader.sizeof : Int), (header.swapped host).bytes host)
        { socket with transit := body, calls := calls } := by
  have length := RockMsgHeader.bytes_length host (header.swapped host)
  obtain ⟨calls, read⟩ :=
    @Stream.readFixSize_spec env peer.buffSize RockMsgHeader.sizeof socket
      connected (by decide) (by
        rw [transit, List.length_append, length]
        omega)
  rw [transit, List.take_left' length] at read
  refine ⟨calls, read.trans ?_⟩
  rw [Socket.took, transit, List.drop_left' length]

/-- Past its header `parseFrom` takes the bytes that the header announces and
ends as `parsePayload` does. -/
theorem parseFrom_header (connected : socket.connected = true)
    (transit : socket.transit = (header.swapped host).bytes host ++ body)
    (magic : header.magic = RockMsgHeader.s_rock_magic)
    (version : header.version = 0x1) (positive : 0 < header.length.toNat)
    (small : header.length.toNat < 2 ^ 31)
    (enough : header.length.toNat ≤ body.length)
    (below : ¬peer.gzipMinLength ≤ header.length) :
    ∃ heap ba calls,
      (ByteArray.new host.byteOrder heap defaultBaseSize).Appended
        (body.take header.length.toNat) ba ∧
      parseFrom peer env host gzip socket =
        Prog.catchAll (parsePayload host gzip header.flag (ba.moveTo 0)) (pure none)
          { socket with
            transit := body.drop header.length.toNat
            calls := calls } := by
  obtain ⟨first, headerRead⟩ :=
    @readHeader peer env host socket header body connected transit
  obtain ⟨ba, calls, bodyRead, appended⟩ :=
    @Stream.readFixSizeByteArray_spec env peer.buffSize header.length.toNat
      { socket with transit := body, calls := first } connected small enough
      (ByteArray.new host.byteOrder (env.heap first) defaultBaseSize)
      (ByteArray.inv_new host.byteOrder (env.heap first) (by decide)) rfl
  refine ⟨_, ba, calls, appended, ?_⟩
  unfold parseFrom
  apply Prog.catchAll_step
  rw [Prog.bind_done headerRead]
  simp only
  rw [if_neg (by decide), RockMsgHeader.ofBytes_bytes,
    if_neg (not_not.mpr (show (header.swapped host).magic = _ from magic)),
    if_neg (not_not.mpr (show (header.swapped host).version = _ from version)),
    RockMsgHeader.swapped_swapped, if_neg below,
    Prog.bind_done (Prog.get_apply _), toInt32_of_small small,
    Prog.bind_done bodyRead]
  simp only
  rw [if_neg (by omega), Prog.bind_done (Prog.on_done _
    (ByteArray.setPosition_spec appended.inv (Nat.zero_le _)))]
  rfl

end Header

/-- `parseFrom` on a frame that is not compressed takes the frame from the
connection and ends as the parse of its payload does. -/
theorem parseFrom_spec {socket : Socket} (connected : socket.connected = true)
    {payload rest : Bytes} (transit : socket.transit = frame host payload ++ rest)
    (positive : 0 < payload.length) (small : payload.length < 2 ^ 31)
    (plain : payload.length < peer.gzipMinLength.toNat) :
    ∃ ba calls,
      ByteArray.Cursor host.byteOrder
        (max defaultBaseSize (ByteArray.roundUp defaultBaseSize payload.length)) 0
        payload ba ∧
      parseFrom peer env host gzip socket =
        Prog.catchAll (do
          let (message, _) ← Prog.on ba (Message.parseFromByteArray host)
          pure message) (pure none)
          { socket with transit := rest, calls := calls } := by
  have length : (plainHeader payload).length.toNat = payload.length :=
    UInt32.toNat_ofNat_of_lt' (show payload.length < 2 ^ 32 by omega)
  have below : ¬peer.gzipMinLength ≤ (plainHeader payload).length := by
    rw [UInt32.le_iff_toNat_le, length]
    omega
  obtain ⟨heap, ba, calls, appended, result⟩ :=
    @parseFrom_header peer env host gzip socket (plainHeader payload)
      (payload ++ rest) connected (by rw [transit, frame, List.append_assoc])
      rfl rfl (by omega) (by omega) (by rw [List.length_append]; omega) below
  have cursor := received_spec appended
  rw [length, List.take_left' rfl] at cursor
  have flag : ¬(plainHeader payload).flag &&& 0x1 ≠ 0 := by
    change ¬(0 : UInt8) &&& 0x1 ≠ 0
    decide
  rw [length, List.drop_left' rfl, parsePayload, if_neg flag] at result
  exact ⟨ba.moveTo 0, calls, cursor, result⟩

end RockMessageDecoder

end Sylar
