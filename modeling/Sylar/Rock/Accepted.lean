import Sylar.Rock.Compressed
import Sylar.Rock.Truncated

namespace Sylar

open Logic Data

/-! What `parseFrom` accepts. Whatever a peer sends, a message that comes out of
it is spelled out by the bytes that were taken. -/

theorem Host.store_load (host : Host) (bytes : Bytes) :
    host.store bytes.length (host.load bytes) = bytes := by
  unfold store load
  cases host.memory with
  | little => exact leBytes_ofLeBytes bytes
  | big =>
      have reversed := leBytes_ofLeBytes bytes.reverse
      rw [List.length_reverse] at reversed
      change (leBytes bytes.length (ofLeBytes bytes.reverse)).reverse = bytes
      rw [reversed, List.reverse_reverse]

namespace ByteArray

/-- The bytes that a read took stand before what is unread after it. -/
structure Took (ba : ByteArray) (bytes : Bytes) (after : ByteArray) : Prop where
  inv : after.Inv
  endian : after.endian = ba.endian
  unread : ba.unread = bytes ++ after.unread

/-- Whatever the program returns is encoded by the bytes that it took, and is
short enough for its length fields. -/
def Spelled (order : Endian) (program : Method α) (encode : α → Bytes)
    (short : α → Prop) : Prop :=
  ∀ ⦃ba : ByteArray⦄, ba.Inv → ba.endian = order → ∀ ⦃value after⦄,
    program ba = .done value after → ba.Took (encode value) after ∧ short value

theorem Took.trans {ba middle after : ByteArray} (first : ba.Took left middle)
    (second : middle.Took right after) : ba.Took (left ++ right) after where
  inv := second.inv
  endian := second.endian.trans first.endian
  unread := by rw [first.unread, second.unread, List.append_assoc]

theorem read_took {ba after : ByteArray} (inv : ba.Inv) {count : Nat}
    {bytes : Bytes} (result : read count ba = .done bytes after) :
    ba.Took bytes after ∧ bytes.length = count := by
  have order := inv.position_le
  have within := inv.size_le
  by_cases enough : count ≤ ba.getReadSize
  · by_cases inside : ba.position < ba.capacity
    · rw [read_spec inv enough inside] at result
      obtain ⟨rfl, rfl⟩ := Outcome.done.inj result
      have length := inv.unread_length
      have fits : ba.position + count ≤ ba.size := by
        unfold getReadSize at enough
        omega
      have size : (ba.moveTo (ba.position + count)).size = ba.size :=
        if_neg (by omega)
      have taken : ((memory ba.root).drop ba.position).take count =
          ba.unread.take count := by
        rw [unread_eq, List.take_take]
        exact congrArg (List.take · _) (Nat.min_eq_left (by omega)).symm
      refine ⟨⟨inv.moveTo (by omega), rfl, ?_⟩, ?_⟩
      · rw [taken]
        have rest : (ba.moveTo (ba.position + count)).unread =
            ba.unread.drop count := by
          simp only [unread, content, size]
          rw [List.drop_drop]
          rfl
        rw [rest, List.take_append_drop]
      · rw [taken, List.length_take, length]
        omega
    · obtain rfl : count = 0 := by
        unfold getReadSize at enough
        omega
      rw [read_null inv (by omega)] at result
      cases result
  · obtain ⟨error, short⟩ := read_short ba (Nat.not_le.mp enough)
    rw [short] at result
    cases result

theorem readFuint8_spelled (order : Endian) :
    Spelled order readFuint8 (fun value => [value]) fun _ => True := by
  intro ba inv _ value after result
  obtain ⟨bytes, middle, read, last⟩ := Prog.of_bind_done result
  obtain ⟨rfl, rfl⟩ := Outcome.done.inj last
  obtain ⟨took, length⟩ := read_took inv read
  obtain ⟨byte, rfl⟩ := List.length_eq_one_iff.mp length
  exact ⟨took, trivial⟩

section Host

variable (host : Host)

theorem readFixed_took {ba after : ByteArray} (inv : ba.Inv)
    (native : ba.endian = host.byteOrder) {width value : Nat}
    (result : readFixed host width ba = .done value after) :
    ba.Took (host.store width value) after ∧ value < 256 ^ width := by
  obtain ⟨bytes, middle, read, last⟩ := Prog.of_bind_done result
  obtain ⟨took, rfl⟩ := read_took inv read
  rw [Prog.bind_done (Prog.get_apply middle), took.endian, native, if_pos rfl]
    at last
  obtain ⟨rfl, rfl⟩ := Outcome.done.inj last
  rw [host.store_load]
  exact ⟨took, host.load_lt bytes⟩

theorem readFuint32_spelled :
    Spelled host.byteOrder (readFuint32 host) (wireUint32 host)
      fun _ => True := by
  intro ba inv native value after result
  obtain ⟨number, middle, read, last⟩ := Prog.of_bind_done result
  obtain ⟨rfl, rfl⟩ := Outcome.done.inj last
  obtain ⟨took, small⟩ := readFixed_took host inv native read
  rw [wireUint32, UInt32.toNat_ofNat_of_lt' small]
  exact ⟨took, trivial⟩

theorem readStringF32_spelled :
    Spelled host.byteOrder (readStringF32 host) (wireString host)
      fun value => value.length < 2 ^ 32 := by
  intro ba inv native value after result
  obtain ⟨len, middle, counted, read⟩ := Prog.of_bind_done result
  have first := (readFuint32_spelled host inv native counted).1
  obtain ⟨second, length⟩ := read_took first.inv read
  rw [wireString, length, UInt32.ofNat_toNat]
  exact ⟨first.trans second, length.trans_lt len.toNat_lt⟩

end Host

end ByteArray

/-! The messages. -/

section Messages

open Sylar.ByteArray (Spelled)

variable (host : Host)

theorem RockBody.spelled :
    Spelled host.byteOrder (RockBody.parseFromByteArray host)
      (fun message => wireString host message.body)
      fun message => message.body.length < 2 ^ 32 := by
  intro ba inv native value after result
  obtain ⟨body, middle, read, last⟩ := Prog.of_bind_done result
  obtain ⟨rfl, rfl⟩ := Outcome.done.inj last
  exact ByteArray.readStringF32_spelled host inv native read

theorem Request.spelled :
    Spelled host.byteOrder (Request.parseFromByteArray host)
      (fun message => wireUint32 host message.sn ++ wireUint32 host message.cmd)
      fun _ => True := by
  intro ba inv native value after result
  obtain ⟨sn, first, number, result⟩ := Prog.of_bind_done result
  obtain ⟨cmd, second, command, last⟩ := Prog.of_bind_done result
  obtain ⟨rfl, rfl⟩ := Outcome.done.inj last
  have one := (ByteArray.readFuint32_spelled host inv native number).1
  have two := (ByteArray.readFuint32_spelled host one.inv
    (one.endian.trans native) command).1
  exact ⟨one.trans two, trivial⟩

theorem Response.spelled :
    Spelled host.byteOrder (Response.parseFromByteArray host)
      (fun message => wireUint32 host message.sn ++ (wireUint32 host message.cmd ++
        (wireUint32 host message.result ++ wireString host message.resultStr)))
      fun message => message.resultStr.length < 2 ^ 32 := by
  intro ba inv native value after result
  obtain ⟨sn, first, number, result⟩ := Prog.of_bind_done result
  obtain ⟨cmd, second, command, result⟩ := Prog.of_bind_done result
  obtain ⟨code, third, outcome, result⟩ := Prog.of_bind_done result
  obtain ⟨text, fourth, string, last⟩ := Prog.of_bind_done result
  obtain ⟨rfl, rfl⟩ := Outcome.done.inj last
  have one := (ByteArray.readFuint32_spelled host inv native number).1
  have two := (ByteArray.readFuint32_spelled host one.inv
    (one.endian.trans native) command).1
  have both := one.trans two
  have three := (ByteArray.readFuint32_spelled host two.inv
    (both.endian.trans native) outcome).1
  obtain ⟨four, small⟩ := ByteArray.readStringF32_spelled host three.inv
    ((both.trans three).endian.trans native) string
  exact ⟨one.trans (two.trans (three.trans four)), small⟩

theorem Notify.spelled :
    Spelled host.byteOrder (Notify.parseFromByteArray host)
      (fun message => wireUint32 host message.notify) fun _ => True := by
  intro ba inv native value after result
  obtain ⟨notify, middle, read, last⟩ := Prog.of_bind_done result
  obtain ⟨rfl, rfl⟩ := Outcome.done.inj last
  exact ByteArray.readFuint32_spelled host inv native read

theorem catchAll_some {body : Prog σ ε (Option α)} {state after : σ} {value : α}
    (result : Prog.catchAll body (pure none) state = .done (some value) after) :
    body state = .done (some value) after := by
  unfold Prog.catchAll at result
  cases ran : body state with
  | done found final =>
      rw [ran] at result
      exact result
  | raise error middle =>
      rw [ran] at result
      cases result
  | fault =>
      rw [ran] at result
      cases result

/-- A head and a body that a message is made of. -/
theorem spelled_parts {head : Method α} {encode : α → Bytes} {short : α → Prop}
    (spelled : Spelled host.byteOrder head encode short) (make : α → RockBody → β)
    {ba after : ByteArray} (inv : ba.Inv) (native : ba.endian = host.byteOrder)
    {message : β}
    (result : Prog.catchAll (do
      let head ← head
      let body ← RockBody.parseFromByteArray host
      pure (some (make head body))) (pure none) ba = .done (some message) after) :
    ∃ value body, message = make value body ∧
      ba.Took (encode value ++ wireString host body.body) after ∧
      short value ∧ body.body.length < 2 ^ 32 := by
  obtain ⟨value, middle, first, rest⟩ := Prog.of_bind_done (catchAll_some result)
  obtain ⟨body, final, second, last⟩ := Prog.of_bind_done rest
  obtain ⟨made, rfl⟩ := Outcome.done.inj last
  obtain ⟨one, small⟩ := spelled inv native first
  obtain ⟨two, also⟩ := RockBody.spelled host one.inv (one.endian.trans native) second
  exact ⟨value, body, (Option.some.inj made).symm, one.trans two, small, also⟩

theorem Message.took {ba after : ByteArray} (inv : ba.Inv)
    (native : ba.endian = host.byteOrder) {message : Message}
    (result : Message.parseFromByteArray host ba = .done (some message) after) :
    ba.Took (message.payload host) after ∧ message.Short := by
  obtain ⟨type, middle, read, rest⟩ := Prog.of_bind_done result
  have first := (ByteArray.readFuint8_spelled host.byteOrder inv native read).1
  have order := first.endian.trans native
  split at rest
  · rename_i request
    obtain ⟨found, final, parsed, last⟩ := Prog.of_bind_done rest
    obtain ⟨same, rfl⟩ := Outcome.done.inj last
    obtain ⟨message, rfl, rfl⟩ := Option.map_eq_some_iff.mp same
    obtain ⟨head, body, rfl, took, small, also⟩ :=
      spelled_parts host (Request.spelled host) RockRequest.mk first.inv order
        parsed
    rw [request] at first
    have whole := first.trans took
    refine ⟨by simpa [Message.payload, Message.head, Message.body] using whole, ?_⟩
    simpa [Message.Short, Message.strings] using also
  · split at rest
    · rename_i response
      obtain ⟨found, final, parsed, last⟩ := Prog.of_bind_done rest
      obtain ⟨same, rfl⟩ := Outcome.done.inj last
      obtain ⟨message, rfl, rfl⟩ := Option.map_eq_some_iff.mp same
      obtain ⟨head, body, rfl, took, small, also⟩ :=
        spelled_parts host (Response.spelled host) RockResponse.mk first.inv order
          parsed
      rw [response] at first
      have whole := first.trans took
      refine ⟨by simpa [Message.payload, Message.head, Message.body] using whole, ?_⟩
      simpa [Message.Short, Message.strings] using ⟨small, also⟩
    · split at rest
      · rename_i notify
        obtain ⟨found, final, parsed, last⟩ := Prog.of_bind_done rest
        obtain ⟨same, rfl⟩ := Outcome.done.inj last
        obtain ⟨message, rfl, rfl⟩ := Option.map_eq_some_iff.mp same
        obtain ⟨head, body, rfl, took, small, also⟩ :=
          spelled_parts host (Notify.spelled host) RockNotify.mk first.inv order
            parsed
        rw [notify] at first
        have whole := first.trans took
        refine ⟨by simpa [Message.payload, Message.head, Message.body] using whole, ?_⟩
        simpa [Message.Short, Message.strings] using also
      · cases rest

/-- A message is parsed exactly when the array begins with its payload and the
body is read through a valid `m_cur`. -/
theorem Message.parse_iff {ba : ByteArray} {capacity : Nat} {content : Bytes}
    {message : Message}
    (cursor : ByteArray.Cursor host.byteOrder capacity 0 content ba) :
    (∃ after, Message.parseFromByteArray host ba = .done (some message) after) ↔
      message.payload host <+: content ∧ message.Short ∧
        (message.body ≠ [] ∨ (message.payload host).length < capacity) := by
  constructor
  · rintro ⟨after, parsed⟩
    obtain ⟨took, short⟩ := Message.took host cursor.inv cursor.endian parsed
    have spelled := took.unread
    rw [cursor.unread] at spelled
    refine ⟨⟨_, spelled.symm⟩, short, ?_⟩
    by_contra outside
    obtain ⟨empty, ended⟩ := not_or.mp outside
    have fits := cursor.end_le
    rw [spelled, List.length_append] at fits
    rw [spelled] at cursor
    rw [Message.parse_first_null short cursor (not_not.mp empty) (by omega)] at parsed
    cases parsed
  · rintro ⟨⟨rest, rfl⟩, short, inside⟩
    exact Message.parse_first short cursor inside

end Messages

namespace Stream

variable {env : Surroundings} {buffSize : BuffSize} {socket after : Socket}

/-- A fixed read that reports more than nothing took all the bytes. -/
theorem readFixSize_took (connected : socket.connected = true) {count : Nat}
    (small : count < 2 ^ 31) {rt : Int} {bytes : Bytes}
    (result : readFixSize env buffSize count socket = .done (rt, bytes) after)
    (positive : 0 < rt) :
    socket.transit = bytes ++ after.transit ∧ bytes.length = count ∧
      after.connected = true := by
  rcases Nat.lt_or_ge socket.transit.length count with short | available
  · obtain ⟨failed, _, calls, nonpositive, ran⟩ :=
      @readLoop_short env buffSize count count socket connected short
    have same := ran.symm.trans result
    obtain ⟨pair, -⟩ := Outcome.done.inj same
    obtain ⟨rfl, -⟩ := Prod.mk.inj pair
    omega
  · obtain ⟨calls, ran⟩ :=
      @readFixSize_spec env buffSize count socket connected small available
    rw [ran] at result
    obtain ⟨pair, rfl⟩ := Outcome.done.inj result
    obtain ⟨-, rfl⟩ := Prod.mk.inj pair
    exact ⟨(List.take_append_drop count _).symm,
      List.length_take_of_le available, connected⟩

theorem readFixSizeByteArray_took (connected : socket.connected = true)
    {length : Nat} (bound : length < 2 ^ 32) {ba filled : ByteArray}
    (inv : ba.Inv) (ended : ba.position = ba.size) {rt : Int}
    (result : readFixSizeByteArray env buffSize ba (toInt32 length) socket =
      .done (rt, filled) after)
    (positive : 0 < rt) :
    ∃ bytes, socket.transit = bytes ++ after.transit ∧ bytes.length = length ∧
      0 < length ∧ length < 2 ^ 31 ∧ ba.Appended bytes filled := by
  rcases Nat.lt_or_ge length (2 ^ 31) with small | large
  · rw [toInt32_of_small small] at result
    rcases Nat.lt_or_ge socket.transit.length length with short | available
    · obtain ⟨failed, _, calls, nonpositive, ran⟩ :=
        @readByteArrayLoop_short env buffSize length length socket connected
          short ba inv
      have same := ran.symm.trans result
      obtain ⟨pair, -⟩ := Outcome.done.inj same
      obtain ⟨rfl, -⟩ := Prod.mk.inj pair
      omega
    · obtain ⟨final, calls, ran, appended⟩ :=
        @readFixSizeByteArray_spec env buffSize length socket connected small
          available ba inv ended
      rw [ran] at result
      obtain ⟨pair, rfl⟩ := Outcome.done.inj result
      obtain ⟨rfl, rfl⟩ := Prod.mk.inj pair
      exact ⟨_, (List.take_append_drop length _).symm,
        List.length_take_of_le available, by omega, small, appended⟩
  · -- a length that is a negative `int32_t` is returned as it is
    have negative := toInt32_of_large large bound
    unfold readFixSizeByteArray readByteArrayLoop at result
    rw [Int.toNat_of_nonpos negative.le, if_neg (by decide)] at result
    obtain ⟨pair, -⟩ := Outcome.done.inj result
    obtain ⟨same, -⟩ := Prod.mk.inj pair
    unfold toInt32 at same negative
    rw [Int.bmod_bmod] at same
    omega

end Stream

namespace RockMessageDecoder

/-- What `parseFrom` went through before a message came out of its payload. -/
theorem accepted_framed {peer : Peer} {env : Surroundings} {host : Host}
    {gzip : Gzip} {socket after : Socket} {message : Message}
    (connected : socket.connected = true)
    (accepted : parseFrom peer env host gzip socket =
      .done (some message) after) :
    ∃ raw body, socket.transit = raw ++ (body ++ after.transit) ∧
      raw.length = RockMsgHeader.sizeof ∧
      (RockMsgHeader.ofBytes host raw).magic = RockMsgHeader.s_rock_magic ∧
      (RockMsgHeader.ofBytes host raw).version = 0x1 ∧
      0 < body.length ∧ body.length < 2 ^ 31 ∧
      ((RockMsgHeader.ofBytes host raw).swapped host).length.toNat =
        body.length ∧
      body.length < peer.gzipMinLength.toNat ∧
      ∃ heap filled middle,
        (ByteArray.new host.byteOrder heap defaultBaseSize).Appended body filled ∧
        parsePayload host gzip (RockMsgHeader.ofBytes host raw).flag
          (filled.moveTo 0) middle = .done (some message) after := by
  obtain ⟨⟨rt, raw⟩, first, header, rest⟩ :=
    Prog.of_bind_done (catchAll_some accepted)
  simp only at rest
  split at rest
  · cases rest
  · rename_i positive
    obtain ⟨split, length, still⟩ :=
      Stream.readFixSize_took connected (by decide) header (by omega)
    split at rest
    · cases rest
    · rename_i magic
      split at rest
      · cases rest
      · rename_i version
        split at rest
        · cases rest
        · rename_i below
          rw [Prog.bind_done (Prog.get_apply first)] at rest
          obtain ⟨⟨count, filled⟩, second, read, rest⟩ := Prog.of_bind_done rest
          simp only at rest
          split at rest
          · cases rest
          · rename_i more
            obtain ⟨body, moved, size, some, small, appended⟩ :=
              Stream.readFixSizeByteArray_took still (UInt32.toNat_lt _)
                (ByteArray.inv_new host.byteOrder (env.heap first.calls)
                  (by decide)) rfl read (by omega)
            rw [Prog.bind_done (Prog.on_done second
              (ByteArray.setPosition_spec appended.inv (Nat.zero_le _)))] at rest
            rw [UInt32.le_iff_toNat_le] at below
            change parsePayload host gzip (RockMsgHeader.ofBytes host raw).flag
              (filled.moveTo 0) second = _ at rest
            have same := parsePayload_final (Prog.catchAll_done rest)
            refine ⟨raw, body, ?_, length, not_not.mp magic, not_not.mp version,
              by omega, by omega, size.symm, by omega, _, filled, second,
              appended, rest⟩
            rw [split, moved, same]

section Unpacked

variable {peer : Peer} {env : Surroundings} {host : Host}
  {deflate inflate : Transducer UInt8} {heap memory : Nat → UInt8}
  {socket after : Socket} {message : Message} {body : Bytes} {flag : UInt8}
  {filled : ByteArray}

theorem parse_iff {ba : ByteArray} {capacity : Nat} {content : Bytes}
    (cursor : ByteArray.Cursor host.byteOrder capacity 0 content ba) :
    (∃ after, (do
        let (message, _) ← Prog.on ba (Message.parseFromByteArray host)
        pure message : Session (Option Message)) socket =
          .done (some message) after) ↔
      message.payload host <+: content ∧ message.Short ∧
        (message.body ≠ [] ∨ (message.payload host).length < capacity) := by
  rw [← Message.parse_iff host cursor]
  constructor
  · rintro ⟨after, result⟩
    obtain ⟨⟨found, final⟩, middle, parsed, last⟩ := Prog.of_bind_done result
    obtain ⟨rfl, rfl⟩ := Outcome.done.inj last
    unfold Prog.on at parsed
    split at parsed
    · rename_i returned
      obtain ⟨pair, rfl⟩ := Outcome.done.inj parsed
      obtain ⟨rfl, rfl⟩ := Prod.mk.inj pair
      exact ⟨_, returned⟩
    · cases parsed
    · cases parsed
  · rintro ⟨final, parsed⟩
    refine ⟨socket, ?_⟩
    rw [Prog.bind_done (Prog.on_done socket parsed)]
    rfl

/-- Soundness of the parser against any peer: a message that it returns was
announced by a valid header, and the body that the header announces, inflated if
it is flagged as compressed, begins with the encoding of the message. -/
theorem accepted_well_formed (connected : socket.connected = true)
    (accepted : parseFrom peer env host
      (ZlibStream.gzip deflate inflate host heap) socket =
        .done (some message) after) :
    ∃ raw body, socket.transit = raw ++ (body ++ after.transit) ∧
      raw.length = RockMsgHeader.sizeof ∧
      (RockMsgHeader.ofBytes host raw).magic = RockMsgHeader.s_rock_magic ∧
      (RockMsgHeader.ofBytes host raw).version = 0x1 ∧
      0 < body.length ∧
      ((RockMsgHeader.ofBytes host raw).swapped host).length.toNat =
        body.length ∧
      body.length < peer.gzipMinLength.toNat ∧
      ((RockMsgHeader.ofBytes host raw).flag &&& 0x1 = 0 ∧
          message.payload host <+: body ∨
        (RockMsgHeader.ofBytes host raw).flag &&& 0x1 ≠ 0 ∧
          ∃ ba inflated, ba.content = body ∧
            ZlibStream.gzip deflate inflate host heap false ba = .done inflated ∧
            message.payload host <+: inflated.unread) := by
  obtain ⟨raw, body, split, length, magic, version, positive, -, size, below,
    _, filled, middle, appended, parsed⟩ := accepted_framed connected accepted
  refine ⟨raw, body, split, length, magic, version, positive, size, below, ?_⟩
  unfold parsePayload at parsed
  split at parsed
  · rename_i compressed
    refine .inr ⟨compressed, filled.moveTo 0, ?_⟩
    generalize ran : ZlibStream.gzip deflate inflate host heap false
      (filled.moveTo 0) = outcome at parsed
    cases outcome with
    | writeError => cases parsed
    | flushError => cases parsed
    | done inflated =>
        obtain ⟨capacity, target, cursor⟩ := ZlibStream.result_made ran
        have taken := ((parse_iff cursor).mp ⟨after, parsed⟩).1
        exact ⟨inflated, appended.content, rfl, cursor.unread.symm ▸ taken⟩
  · rename_i plain
    have taken := ((parse_iff (received_spec appended)).mp ⟨after, parsed⟩).1
    exact .inl ⟨not_not.mp plain, taken⟩

/-- What the flag of a header makes of the body. -/
def opened (inflate : Transducer UInt8) (flag : UInt8) (body : Bytes) :
    Option Bytes :=
  if flag &&& 0x1 ≠ 0 then ZlibStream.compress inflate body else some body

/-- A message comes out of the payload exactly when what is opened begins with
it. -/
theorem parsePayload_iff (positive : 0 < body.length) (small : body.length < 2 ^ 31)
    (appended : (ByteArray.new host.byteOrder memory defaultBaseSize).Appended
      body filled) :
    (∃ after, parsePayload host (ZlibStream.gzip deflate inflate host heap) flag
        (filled.moveTo 0) socket = .done (some message) after) ↔
      ∃ content, opened inflate flag body = some content ∧
        message.payload host <+: content ∧ message.Short ∧
        (message.body ≠ [] ∨ (message.payload host).length <
          max defaultBaseSize
            (ByteArray.roundUp defaultBaseSize content.length)) := by
  unfold parsePayload opened
  split
  · have content : filled.content = body := appended.content
    have size : filled.size = body.length := by
      rw [← appended.inv.content_length, content]
    have outcome := ZlibStream.result_code inflate host heap appended.inv
      (by omega) (by omega) appended.baseSize
    rw [content] at outcome
    simp only [ZlibStream.gzip, ZlibStream.decode]
    rcases outcome with ⟨target, after, coded, done, cursor⟩ | ⟨coded, failed | failed⟩
    · rw [done, coded]
      simp only [parse_iff cursor, Option.some.injEq, exists_eq_left']
    · rw [failed, coded]
      constructor
      · rintro ⟨after, ⟨⟩⟩
      · rintro ⟨content, ⟨⟩, -⟩
    · rw [failed, coded]
      constructor
      · rintro ⟨after, ⟨⟩⟩
      · rintro ⟨content, ⟨⟩, -⟩
  · simp only [parse_iff (received_spec appended), Option.some.injEq, exists_eq_left']

end Unpacked

/-- The notification that is sent compressed. -/
theorem accepted_well_formed_repetitive :
    ∃ raw body ba inflated,
      ((gzipHeader repetitiveGzip).swapped x64).bytes x64 ++ repetitiveGzip =
        raw ++ (body ++ []) ∧
      raw.length = RockMsgHeader.sizeof ∧ ba.content = body ∧
      gzipOf repetitive repetitiveGzip false ba = .done inflated ∧
      repetitive.payload x64 <+: inflated.unread := by
  have converts : (inflateOf repetitive repetitiveGzip).Converts repetitiveGzip
      (repetitive.payload x64) := by
    have general := Transducer.buffering_converts
      (unpack (repetitive.payload x64) repetitiveGzip) repetitiveGzip
    rwa [unpack, if_pos rfl] at general
  obtain ⟨received, parsed, empty⟩ := (@parseFrom_compressed_iff ⟨.client, 60⟩ whole x64
    (deflateOf repetitive repetitiveGzip) _ (fun _ => 0)
    ⟨true, ((gzipHeader repetitiveGzip).swapped x64).bytes x64 ++ repetitiveGzip, 0⟩
    repetitive repetitiveGzip converts (by decide) (by decide) (by decide) rfl rfl
    (by decide)).mpr (by decide)
  obtain ⟨raw, body, split, length, -, -, -, -, -, ⟨plain, -⟩ | ⟨-, opened⟩⟩ :=
    accepted_well_formed rfl parsed
  · rw [empty, List.append_nil] at split
    obtain ⟨rfl, -⟩ := List.append_inj split (by rw [length]; rfl)
    exact absurd plain (by decide)
  · obtain ⟨ba, inflated, content, result, taken⟩ := opened
    rw [empty] at split
    exact ⟨raw, body, ba, inflated, split, length, content, result, taken⟩

end RockMessageDecoder

end Sylar
