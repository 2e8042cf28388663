import Sylar.Rock.Framing
import Sylar.Stream.Zlib

namespace Sylar

open Logic Data

namespace RockMessageDecoder

/-! Frames with a compressed payload. -/

/-- The header `serializeTo` sends with a payload it has compressed. -/
def gzipHeader (compressed : Bytes) : RockMsgHeader :=
  { RockMsgHeader.new with
    flag := RockMsgHeader.new.flag ||| 0x1
    length := UInt32.ofNat compressed.length }

variable {peer : Peer} {env : Surroundings} {host : Host} {gzip : Gzip}
  {deflate inflate : Transducer UInt8} {heap : Nat → UInt8} {socket sent final : Socket}
  {message : Message} {compressed : Bytes} {rt : Int}

theorem gzipHeader_length (compressed : Bytes) :
    (gzipHeader compressed).length.toNat = compressed.length % 2 ^ 32 :=
  UInt32.toNat_ofNat

theorem length_of_toInt32 {count : Nat} (positive : 0 < toInt32 count) :
    0 < count % 2 ^ 32 ∧ count % 2 ^ 32 < 2 ^ 31 := by
  unfold toInt32 at positive
  rw [Int.bmod_def] at positive
  split at positive <;> omega

/-- A long payload is compressed, and what comes out is sent, all of it. -/
theorem serializeTo_gzip (connected : socket.connected = true)
    (above : peer.gzipMinLength ≤ UInt32.ofNat (message.payload host).length)
    (sized : (message.payload host).length < 2 ^ 64 - 1) :
    (∃ compressed calls,
      ZlibStream.compress deflate (message.payload host) = some compressed ∧
      serializeTo peer env host (ZlibStream.gzip deflate inflate host heap)
          message socket =
        .done
          (if toInt32 compressed.length ≤ 0 then -4
            else toInt32 (RockMsgHeader.sizeof + compressed.length : Nat))
          (socket.gave (((gzipHeader compressed).swapped host).bytes host ++
            compressed) calls)) ∨
    ∃ rt, rt < 0 ∧ ZlibStream.compress deflate (message.payload host) = none ∧
      serializeTo peer env host (ZlibStream.gzip deflate inflate host heap)
        message socket = .done rt socket := by
  obtain ⟨ba, made, appended⟩ :=
    toByteArray_appended host (env.heap socket.calls) message socket
  have inv := appended.inv
  have content : ba.content = message.payload host := appended.content
  have size : ba.size = (message.payload host).length := by
    rw [← inv.content_length, content]
  have positive := message.payload_pos host
  unfold serializeTo
  rw [Prog.bind_done (Prog.get_apply socket), Prog.bind_done made]
  simp only
  rw [Prog.bind_done (Prog.on_done socket
    (ByteArray.setPosition_spec inv (Nat.zero_le _)))]
  rw [ByteArray.getSize, ByteArray.moveTo_zero_size, size, if_pos above]
  simp only [ZlibStream.gzip, ZlibStream.encode]
  have outcome := ZlibStream.result_code deflate host heap inv (by omega) (by omega)
    appended.baseSize
  rw [content] at outcome
  rcases outcome with ⟨compressed, after, coded, done, cursor⟩ | ⟨coded, failed | failed⟩
  · have unread := cursor.inv.unread_length
    rw [cursor.unread] at unread
    have whole : after.getSize = compressed.length := by
      rw [unread, ByteArray.getReadSize, cursor.position]
      rfl
    obtain ⟨calls, frame⟩ := @sendFrame_any peer env host socket connected
      (gzipHeader compressed) after cursor.inv
    rw [cursor.unread, ← unread, show after.size = compressed.length from whole]
      at frame
    refine .inl ⟨compressed, calls, coded, ?_⟩
    rw [done]
    simp only [whole]
    exact frame
  · rw [failed]
    exact .inr ⟨-1, by decide, coded, rfl⟩
  · rw [failed]
    exact .inr ⟨-2, by decide, coded, rfl⟩

theorem above_of_long
    (long : peer.gzipMinLength.toNat ≤ (message.payload host).length)
    (small : (message.payload host).length < 2 ^ 32) :
    peer.gzipMinLength ≤ UInt32.ofNat (message.payload host).length := by
  rw [UInt32.le_iff_toNat_le, UInt32.toNat_ofNat_of_lt' small]
  exact long

theorem serializeTo_compressed (connected : socket.connected = true)
    (long : peer.gzipMinLength.toNat ≤ (message.payload host).length)
    (small : (message.payload host).length < 2 ^ 32)
    (serialized : serializeTo peer env host
      (ZlibStream.gzip deflate inflate host heap) message socket = .done rt sent)
    (success : 0 < rt) :
    ∃ compressed calls,
      ZlibStream.compress deflate (message.payload host) = some compressed ∧
      0 < compressed.length % 2 ^ 32 ∧ compressed.length % 2 ^ 32 < 2 ^ 31 ∧
      sent = socket.gave (((gzipHeader compressed).swapped host).bytes host ++
        compressed) calls := by
  rcases @serializeTo_gzip peer env host deflate inflate heap socket message
    connected (above_of_long long small) (by omega)
    with ⟨compressed, calls, coded, result⟩ | ⟨_, failed, _, result⟩
  · obtain ⟨rfl, rfl⟩ := Outcome.done.inj (result.symm.trans serialized)
    have moved : 0 < toInt32 compressed.length := by
      split at success
      · omega
      · omega
    obtain ⟨nonempty, below⟩ := length_of_toInt32 moved
    exact ⟨compressed, calls, coded, nonempty, below, rfl⟩
  · obtain ⟨rfl, rfl⟩ := Outcome.done.inj (result.symm.trans serialized)
    omega

theorem serializeTo_succeeds (connected : socket.connected = true)
    (long : peer.gzipMinLength.toNat ≤ (message.payload host).length)
    (small : (message.payload host).length < 2 ^ 32)
    (coded : ZlibStream.compress deflate (message.payload host) = some compressed)
    (positive : 0 < compressed.length)
    (fits : RockMsgHeader.sizeof + compressed.length < 2 ^ 31) :
    ∃ sent, serializeTo peer env host (ZlibStream.gzip deflate inflate host heap)
      message socket = .done (RockMsgHeader.sizeof + compressed.length : Nat) sent := by
  rcases @serializeTo_gzip peer env host deflate inflate heap socket message
    connected (above_of_long long small) (by omega)
    with ⟨other, calls, also, result⟩ | ⟨_, _, also, _⟩
  · cases coded.symm.trans also
    rw [toInt32_of_small (by omega), if_neg (by omega), toInt32_of_small fits] at result
    exact ⟨_, result⟩
  · cases coded.symm.trans also

/-- A frame as long as the threshold is refused, compressed or not. -/
theorem parseFrom_refused {header : RockMsgHeader} {body : Bytes}
    (connected : socket.connected = true)
    (transit : socket.transit = (header.swapped host).bytes host ++ body)
    (above : peer.gzipMinLength ≤ header.length) :
    ∃ calls, parseFrom peer env host gzip socket =
      .done none { socket with transit := body, calls := calls } := by
  obtain ⟨calls, read⟩ :=
    @readHeader peer env host socket header body connected transit
  refine ⟨calls, Prog.catchAll_done ?_⟩
  rw [Prog.bind_done read]
  simp only
  rw [if_neg (by decide), RockMsgHeader.ofBytes_bytes, RockMsgHeader.swapped_swapped,
    if_pos above]
  split
  · rfl
  · split
    · rfl
    · rfl

theorem parse_final {ba : ByteArray} {result : Option Message}
    (parsed : Prog.catchAll (do
      let (message, _) ← Prog.on ba (Message.parseFromByteArray host)
      pure message) (pure none) socket = .done result final) : final = socket := by
  simp only [Prog.catchAll, Prog.bind_apply, Prog.on] at parsed
  cases outcome : Message.parseFromByteArray host ba with
  | done value after =>
      rw [outcome] at parsed
      exact (Outcome.done.inj parsed).2.symm
  | raise error after =>
      rw [outcome] at parsed
      exact (Outcome.done.inj parsed).2.symm
  | fault =>
      rw [outcome] at parsed
      cases parsed

theorem parsePayload_final {flag : UInt8} {ba : ByteArray} {result : Option Message}
    (parsed : Prog.catchAll (parsePayload host gzip flag ba) (pure none) socket =
      .done result final) : final = socket := by
  unfold parsePayload at parsed
  split at parsed
  · split at parsed
    · exact parse_final parsed
    · exact (Outcome.done.inj parsed).2.symm
  · exact parse_final parsed

/-! The end of `parseFrom` on the whole compressed payload. -/

section Unpacked

variable {ba : ByteArray} {capacity : Nat}

theorem unpacked (converts : inflate.Converts compressed (message.payload host))
    (positive : 0 < compressed.length) (below : compressed.length < 2 ^ 32)
    (cursor : ByteArray.Cursor host.byteOrder capacity 0 compressed ba) :
    ∃ after,
      parsePayload host (ZlibStream.gzip deflate inflate host heap)
          (gzipHeader compressed).flag ba = (do
        let (message, _) ← Prog.on after (Message.parseFromByteArray host)
        pure message) ∧
      ByteArray.Cursor host.byteOrder
        (max defaultBaseSize
          (ByteArray.roundUp defaultBaseSize (message.payload host).length)) 0
        (message.payload host) after := by
  obtain ⟨after, result, start⟩ := ZlibStream.result_decode converts host heap
    cursor.inv cursor.unread positive below
  have flag : (gzipHeader compressed).flag &&& 0x1 ≠ 0 := by
    change ((0 : UInt8) ||| 0x1) &&& 0x1 ≠ 0
    decide
  refine ⟨after, ?_, start⟩
  rw [parsePayload, if_pos flag, ZlibStream.gzip, result]

theorem unpacked_message
    (converts : inflate.Converts compressed (message.payload host))
    (small : (message.payload host).length < 2 ^ 32)
    (positive : 0 < compressed.length) (below : compressed.length < 2 ^ 32)
    (cursor : ByteArray.Cursor host.byteOrder capacity 0 compressed ba)
    (inside : message.body ≠ [] ∨
      (message.payload host).length % defaultBaseSize ≠ 0) :
    Prog.catchAll (parsePayload host (ZlibStream.gzip deflate inflate host heap)
      (gzipHeader compressed).flag ba) (pure none) socket =
        .done (some message) socket := by
  obtain ⟨after, same, start⟩ :=
    @unpacked host deflate inflate heap message _ _ _ converts positive below cursor
  obtain ⟨last, parsed⟩ := Message.parse_spec small start (by
    rwa [room_iff (show 0 < defaultBaseSize by decide) (message.payload_pos host)])
  rw [same]
  refine Prog.catchAll_done ?_
  rw [Prog.bind_done (Prog.on_done _ parsed)]
  rfl

theorem unpacked_null
    (converts : inflate.Converts compressed (message.payload host))
    (small : (message.payload host).length < 2 ^ 32)
    (positive : 0 < compressed.length) (below : compressed.length < 2 ^ 32)
    (cursor : ByteArray.Cursor host.byteOrder capacity 0 compressed ba)
    (empty : message.body = [])
    (ended : (message.payload host).length % defaultBaseSize = 0) :
    Prog.catchAll (parsePayload host (ZlibStream.gzip deflate inflate host heap)
      (gzipHeader compressed).flag ba) (pure none) socket = .fault := by
  obtain ⟨after, same, start⟩ :=
    @unpacked host deflate inflate heap message _ _ _ converts positive below cursor
  have bound := @ByteArray.le_roundUp defaultBaseSize (by decide)
    (message.payload host).length
  have full := (not_congr (room_iff (show 0 < defaultBaseSize by decide)
    (message.payload_pos host))).mpr (not_not.mpr ended)
  rw [same]
  exact Prog.catchAll_fault (Prog.bind_fault
    (Prog.on_fault _ (Message.parse_null small start empty (by omega))))

end Unpacked

/-- Of a frame below the threshold everything is read, unless its length does not
fit the header, and no empty body may end the last node. -/
theorem parseFrom_compressed_iff
    (converts : inflate.Converts compressed (message.payload host))
    (small : (message.payload host).length < 2 ^ 32)
    (positive : 0 < compressed.length % 2 ^ 32)
    (bounded : compressed.length % 2 ^ 32 < 2 ^ 31)
    (connected : socket.connected = true)
    (transit : socket.transit =
      ((gzipHeader compressed).swapped host).bytes host ++ compressed)
    (below : ¬peer.gzipMinLength ≤ (gzipHeader compressed).length) :
    (∃ received, parseFrom peer env host
        (ZlibStream.gzip deflate inflate host heap) socket =
          .done (some message) received ∧
      received.transit = []) ↔
    compressed.length < 2 ^ 32 ∧
      ¬(message.body = [] ∧ (message.payload host).length % defaultBaseSize = 0) := by
  have length := gzipHeader_length compressed
  have fits := Nat.mod_le compressed.length (2 ^ 32)
  obtain ⟨_, ba, calls, appended, result⟩ := @parseFrom_header peer env host
    (ZlibStream.gzip deflate inflate host heap) _ _ _ connected transit rfl rfl
    (by omega) (by omega) (by omega) below
  have cursor := received_spec appended
  rw [length] at cursor
  rw [result, length]
  have arrived (whole : compressed.length < 2 ^ 32) :
      0 < compressed.length ∧
      ByteArray.Cursor host.byteOrder
        (max defaultBaseSize (ByteArray.roundUp defaultBaseSize compressed.length)) 0
        compressed (ba.moveTo 0) := by
    rw [Nat.mod_eq_of_lt whole, List.take_length] at cursor
    rw [Nat.mod_eq_of_lt whole] at positive
    exact ⟨positive, cursor⟩
  constructor
  · rintro ⟨received, parsed, nothing⟩
    cases parsePayload_final parsed
    have taken := List.drop_eq_nil_iff.mp nothing
    have whole : compressed.length < 2 ^ 32 := by omega
    refine ⟨whole, ?_⟩
    rintro ⟨empty, ended⟩
    obtain ⟨positive, cursor⟩ := arrived whole
    rw [unpacked_null converts small positive whole cursor empty ended] at parsed
    cases parsed
  · rintro ⟨whole, inside⟩
    obtain ⟨positive, cursor⟩ := arrived whole
    refine ⟨_, unpacked_message converts small positive whole cursor ?_, ?_⟩
    · by_cases empty : message.body = []
      · exact .inr fun ended => inside ⟨empty, ended⟩
      · exact .inl empty
    · exact List.drop_eq_nil_iff.mpr (Nat.mod_eq_of_lt whole).ge

/-- A payload of at least the threshold that was sent comes back exactly when it
was compressed below the threshold and no empty body ends the last node. -/
theorem compressed_arrives_iff (undoes : Transducer.Undoes inflate deflate)
    (env : Surroundings) (host : Host) (heap : Nat → UInt8) (peer : Peer)
    (maxLength : UInt32) (message : Message)
    (long : peer.gzipMinLength.toNat ≤ (message.payload host).length)
    (allowed : (message.payload host).length < maxLength.toNat)
    (serialized : serializeTo peer env host
      (ZlibStream.gzip deflate inflate host heap) message ⟨true, [], 0⟩ =
        .done rt sent)
    (success : 0 < rt) :
    (∃ received, parseFrom peer env host
        (ZlibStream.gzip deflate inflate host heap) sent =
          .done (some message) received ∧
      received.transit = []) ↔
    (∃ compressed,
      ZlibStream.compress deflate (message.payload host) = some compressed ∧
      compressed.length < peer.gzipMinLength.toNat) ∧
    ¬(message.body = [] ∧ (message.payload host).length % 4096 = 0) := by
  have small : (message.payload host).length < 2 ^ 32 :=
    allowed.trans maxLength.toNat_lt
  obtain ⟨compressed, calls, coded, positive, bounded, rfl⟩ :=
    serializeTo_compressed rfl long small serialized success
  have converts := undoes.converts (ZlibStream.compress_ended (undoes.exhausts _) coded)
  have length := gzipHeader_length compressed
  have threshold := peer.gzipMinLength.toNat_lt
  have transit : (Socket.gave ⟨true, [], 0⟩ (((gzipHeader compressed).swapped host).bytes
      host ++ compressed) calls).transit =
      ((gzipHeader compressed).swapped host).bytes host ++ compressed :=
    List.nil_append _
  by_cases above : peer.gzipMinLength ≤ (gzipHeader compressed).length
  · obtain ⟨later, refused⟩ := @parseFrom_refused peer env host
      (ZlibStream.gzip deflate inflate host heap) _ _ _ rfl transit above
    rw [UInt32.le_iff_toNat_le, length] at above
    rw [refused]
    constructor
    · rintro ⟨received, parsed, -⟩
      cases parsed
    · rintro ⟨⟨other, also, below⟩, -⟩
      cases coded.symm.trans also
      have fits := Nat.mod_eq_of_lt (below.trans threshold)
      omega
  · rw [parseFrom_compressed_iff converts small positive bounded rfl transit above]
    rw [UInt32.le_iff_toNat_le, length] at above
    refine and_congr_left fun _ => ?_
    constructor
    · intro whole
      rw [Nat.mod_eq_of_lt whole] at above
      exact ⟨compressed, coded, Nat.lt_of_not_le above⟩
    · rintro ⟨other, also, below⟩
      cases coded.symm.trans also
      exact below.trans threshold

/-! One payload with its gzip form, every other one behind a zero. -/

section Samples

def pack (payload packed source : Bytes) : Bytes :=
  if source = payload then packed else 0 :: source

def unpack (payload packed target : Bytes) : Bytes :=
  if target = packed then payload else target.drop 1

theorem unpack_pack {payload packed : Bytes} (gzip : packed.head? ≠ some 0) :
    Function.LeftInverse (unpack payload packed) (pack payload packed) := by
  intro source
  unfold pack
  split
  · rename_i same
    rw [unpack, if_pos rfl, same]
  · rw [unpack, if_neg (by rintro rfl; exact gzip rfl)]
    rfl

def x64 : Host := ⟨.little, .little⟩

def deflateOf (message : Message) (packed : Bytes) : Transducer UInt8 :=
  .buffering (pack (message.payload x64) packed)

def inflateOf (message : Message) (packed : Bytes) : Transducer UInt8 :=
  .buffering (unpack (message.payload x64) packed)

def gzipOf (message : Message) (packed : Bytes) : Gzip :=
  ZlibStream.gzip (deflateOf message packed) (inflateOf message packed) x64
    fun _ => 0

variable {packed : Bytes}

theorem undoes_of (gzip : packed.head? ≠ some 0) :
    (inflateOf message packed).Undoes (deflateOf message packed) :=
  Transducer.buffering_undoes (unpack_pack gzip)

theorem compress_of (message : Message) (packed : Bytes) :
    ZlibStream.compress (deflateOf message packed) (message.payload x64) =
      some packed := by
  rw [deflateOf, ZlibStream.compress_converts (Transducer.buffering_converts _ _),
    pack, if_pos rfl]

/-- A notification with 64 equal bytes. -/
def repetitive : Message :=
  .notify ⟨⟨3⟩, ⟨List.replicate 64 97⟩⟩

def repetitiveGzip : Bytes :=
  [31, 139, 8, 0, 0, 0, 0, 0, 0, 10, 99, 102, 102, 96, 96, 112, 0, 226, 68, 10, 1,
    0, 53, 114, 72, 98, 73, 0, 0, 0]

theorem compressed_arrives_repetitive :
    ∃ sent received,
      serializeTo ⟨.client, 60⟩ whole x64 (gzipOf repetitive repetitiveGzip)
        repetitive ⟨true, [], 0⟩ = .done 38 sent ∧
      parseFrom ⟨.client, 60⟩ whole x64 (gzipOf repetitive repetitiveGzip)
        sent = .done (some repetitive) received := by
  have coded := compress_of repetitive repetitiveGzip
  obtain ⟨sent, serialized⟩ := @serializeTo_succeeds ⟨.client, 60⟩ whole x64 _
    (inflateOf repetitive repetitiveGzip) (fun _ => 0) ⟨true, [], 0⟩ repetitive
    repetitiveGzip rfl (by decide) (by decide) coded (by decide) (by decide)
  obtain ⟨received, parsed, -⟩ := (compressed_arrives_iff (undoes_of (by decide))
    whole x64 (fun _ => 0) ⟨.client, 60⟩ 1000 repetitive (by decide)
    (by decide) serialized (by decide)).mpr
      ⟨⟨repetitiveGzip, coded, by decide⟩, by decide⟩
  exact ⟨sent, received, serialized, parsed⟩

/-- A notification with eight bytes; the compressed form is longer. -/
def dense : Message :=
  .notify ⟨⟨3⟩, ⟨[1, 2, 3, 4, 5, 6, 7, 8]⟩⟩

def denseGzip : Bytes :=
  [31, 139, 8, 0, 0, 0, 0, 0, 0, 10, 99, 102, 102, 96, 96, 224, 0, 98, 70, 38, 102,
    22, 86, 54, 118, 14, 0, 153, 63, 89, 239, 17, 0, 0, 0]

/-- The receiver holds the compressed length against the threshold at which the
sender starts to compress. -/
theorem compressed_refused :
    (inflateOf dense denseGzip).Undoes (deflateOf dense denseGzip) ∧
    (dense.payload x64).length = 17 ∧
    ∃ sent received,
      serializeTo ⟨.client, 16⟩ whole x64 (gzipOf dense denseGzip) dense
        ⟨true, [], 0⟩ = .done 43 sent ∧
      parseFrom ⟨.client, 16⟩ whole x64 (gzipOf dense denseGzip) sent =
        .done none received := by
  have coded := compress_of dense denseGzip
  obtain ⟨sent, serialized⟩ := @serializeTo_succeeds ⟨.client, 16⟩ whole x64 _
    (inflateOf dense denseGzip) (fun _ => 0) ⟨true, [], 0⟩ dense denseGzip rfl
    (by decide) (by decide) coded (by decide) (by decide)
  obtain ⟨compressed, calls, also, -, -, rfl⟩ :=
    serializeTo_compressed rfl (by decide) (by decide) serialized (by decide)
  cases coded.symm.trans also
  obtain ⟨later, refused⟩ := @parseFrom_refused ⟨.client, 16⟩ whole x64
    (gzipOf dense denseGzip) (Socket.gave ⟨true, [], 0⟩
      (((gzipHeader denseGzip).swapped x64).bytes x64 ++ denseGzip) calls)
    (gzipHeader denseGzip) denseGzip rfl (List.nil_append _) (by decide)
  exact ⟨undoes_of (by decide), by decide, _, _, serialized, refused⟩

end Samples

end RockMessageDecoder

end Sylar
