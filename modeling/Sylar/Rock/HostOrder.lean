import Sylar.Rock.Accepted

namespace Sylar

open Logic Data

/-! Hosts of either byte order, whatever their `BYTE_ORDER` says. The numbers of a
payload are stored as the host stores them, since a new array has the byte order
of its host; the length in a header has the order that `byteswapOnLittleEndian`
and the store give it together. -/

namespace Host

/-- A number is stored alike when it is the same from both ends. -/
theorem store_eq_iff {sender receiver : Host} (apart : sender.memory ≠ receiver.memory)
    {width value : Nat} (small : value < 256 ^ width) :
    sender.store width value = receiver.store width value ↔
      byteswap width value = value := by
  have palindrome : leBytes width value = (leBytes width value).reverse ↔
      swapBytes width value = value := by
    constructor
    · intro same
      rw [swapBytes, ← same, ofLeBytes_leBytes, Nat.mod_eq_of_lt small]
    · intro same
      have back := leBytes_ofLeBytes (leBytes width value).reverse
      rw [List.length_reverse, leBytes_length] at back
      rw [← back]
      exact congrArg (leBytes width) same.symm
  unfold store
  cases one : sender.memory with
  | little =>
      cases two : receiver.memory with
      | little => exact absurd (one.trans two.symm) apart
      | big => exact palindrome
  | big =>
      cases two : receiver.memory with
      | little => exact eq_comm.trans palindrome
      | big => exact absurd (one.trans two.symm) apart

/-- On the wire the lengths of headers have one order, that of the network where
`BYTE_ORDER` is right. -/
def Alike (sender receiver : Host) : Prop :=
  sender.byteOrder = sender.memory ↔ receiver.byteOrder = receiver.memory

instance (sender receiver : Host) : Decidable (Alike sender receiver) :=
  inferInstanceAs (Decidable (_ ↔ _))

theorem Alike.symm {sender receiver : Host} (alike : Alike sender receiver) :
    Alike receiver sender :=
  Iff.symm alike

theorem byteswapOnLittleEndian_lt (host : Host) {width value : Nat}
    (small : value < 256 ^ width) :
    byteswapOnLittleEndian host width value < 256 ^ width := by
  unfold byteswapOnLittleEndian
  cases host.byteOrder with
  | big => exact small
  | little => exact swapBytes_lt width value

/-- The length that the receiver sees in a header. -/
def announced (sender receiver : Host) (length : Nat) : Nat :=
  if Alike sender receiver then length else byteswap 4 length

theorem announced_comm (sender receiver : Host) :
    announced sender receiver = announced receiver sender := by
  funext length
  exact if_congr ⟨Alike.symm, Alike.symm⟩ rfl rfl

theorem announced_eq_iff {sender receiver : Host} {length : Nat} :
    announced sender receiver length = length ↔
      Alike sender receiver ∨ byteswap 4 length = length := by
  unfold announced
  split
  · simp [*]
  · simp [*]

theorem announced_lt {sender receiver : Host} {length : Nat} (small : length < 2 ^ 32) :
    announced sender receiver length < 2 ^ 32 := by
  unfold announced
  split
  · exact small
  · exact swapBytes_lt 4 length

theorem store_swapped (host : Host) (width value : Nat) :
    host.store width (byteswapOnLittleEndian host width value) =
      if host.byteOrder = host.memory then (leBytes width value).reverse
      else leBytes width value := by
  have back := leBytes_ofLeBytes (leBytes width value).reverse
  rw [List.length_reverse, leBytes_length] at back
  obtain ⟨order, memory⟩ := host
  cases order with
  | big => cases memory <;> rfl
  | little =>
      cases memory with
      | little => exact back
      | big => exact (congrArg List.reverse back).trans (List.reverse_reverse _)

theorem load_swapped (host : Host) (bytes : Bytes) :
    byteswapOnLittleEndian host bytes.length (host.load bytes) =
      if host.byteOrder = host.memory then ofLeBytes bytes.reverse
      else ofLeBytes bytes := by
  split
  · rename_i matching
    exact byteswapOnLittleEndian_load matching bytes
  · rename_i wrong
    obtain ⟨order, memory⟩ := host
    cases order with
    | big =>
        cases memory with
        | little => rfl
        | big => exact absurd rfl wrong
    | little =>
        cases memory with
        | little => exact absurd rfl wrong
        | big =>
            have back := leBytes_ofLeBytes bytes.reverse
            rw [List.length_reverse] at back
            change ofLeBytes (leBytes bytes.length (ofLeBytes bytes.reverse)).reverse = _
            rw [back, List.reverse_reverse]

end Host

open Host

namespace RockMsgHeader

variable {sender receiver : Host} {header : RockMsgHeader}

theorem bytes_ofBytes (host : Host) {raw : Bytes} (length : raw.length = sizeof) :
    (ofBytes host raw).bytes host = raw := by
  match raw, length with
  | magic :: first :: version :: flag :: rest, length =>
    have four : rest.length = 4 := Nat.add_right_cancel (m := 4) length
    have small := host.load_lt rest
    have back := host.store_load rest
    rw [four] at small back
    change [magic, first, version, flag] ++
      host.store 4 (UInt32.ofNat (host.load rest)).toNat = _
    rw [UInt32.toNat_ofNat_of_lt' small, back]
    rfl

/-- A header as the host that receives it sees it. -/
def seen (sender receiver : Host) (header : RockMsgHeader) : RockMsgHeader :=
  (ofBytes receiver ((header.swapped sender).bytes sender)).swapped receiver

theorem seen_bytes (sender receiver : Host) (header : RockMsgHeader) :
    ((header.seen sender receiver).swapped receiver).bytes receiver =
      (header.swapped sender).bytes sender := by
  rw [seen, swapped_swapped, bytes_ofBytes receiver (bytes_length sender _)]

theorem seen_magic (sender receiver : Host) (header : RockMsgHeader) :
    (header.seen sender receiver).magic = header.magic := rfl

theorem seen_version (sender receiver : Host) (header : RockMsgHeader) :
    (header.seen sender receiver).version = header.version := rfl

theorem seen_flag (sender receiver : Host) (header : RockMsgHeader) :
    (header.seen sender receiver).flag = header.flag := rfl

theorem seen_length (sender receiver : Host) (header : RockMsgHeader) :
    (header.seen sender receiver).length.toNat =
      announced sender receiver header.length.toNat := by
  have small : header.length.toNat < 256 ^ 4 := header.length.toNat_lt
  have wire : (header.swapped sender).bytes sender =
      [header.magic.1, header.magic.2, header.version, header.flag] ++
        sender.store 4 (byteswapOnLittleEndian sender 4 header.length.toNat) := by
    rw [bytes, swapped, UInt32.toNat_ofNat_of_lt'
      (byteswapOnLittleEndian_lt sender small)]
  have read := receiver.load_swapped
    (sender.store 4 (byteswapOnLittleEndian sender 4 header.length.toNat))
  have loaded := receiver.load_lt
    (sender.store 4 (byteswapOnLittleEndian sender 4 header.length.toNat))
  rw [Host.store_length] at read loaded
  change (UInt32.ofNat (byteswapOnLittleEndian receiver 4 (UInt32.ofNat
    (receiver.load (((header.swapped sender).bytes sender).drop 4))).toNat)).toNat = _
  rw [wire]
  simp only [List.cons_append, List.nil_append, List.drop_succ_cons, List.drop_zero]
  rw [UInt32.toNat_ofNat_of_lt' loaded,
    UInt32.toNat_ofNat_of_lt' (byteswapOnLittleEndian_lt receiver loaded), read,
    store_swapped]
  unfold announced Alike
  by_cases one : sender.byteOrder = sender.memory
  · by_cases two : receiver.byteOrder = receiver.memory
    · simp only [one, two, if_true, List.reverse_reverse, ofLeBytes_leBytes]
      exact Nat.mod_eq_of_lt small
    · simp only [one, two, if_true, if_false, iff_false, not_true_eq_false]
      rfl
  · by_cases two : receiver.byteOrder = receiver.memory
    · simp only [one, two, if_true, if_false, iff_true]
      rfl
    · simp only [one, two, if_true, if_false, ofLeBytes_leBytes]
      exact Nat.mod_eq_of_lt small

end RockMsgHeader

namespace Message

/-- The numbers of the payload: the fields of the head and the lengths of the
strings. -/
def numbers : Message → List UInt32
  | .request message =>
      [message.sn, message.cmd, UInt32.ofNat message.body.length]
  | .response message =>
      [message.sn, message.cmd, message.result,
        UInt32.ofNat message.resultStr.length, UInt32.ofNat message.body.length]
  | .notify message => [message.notify, UInt32.ofNat message.body.length]

/-- Every number reads the same from both ends. -/
def Palindromic (message : Message) : Prop :=
  ∀ number ∈ message.numbers, byteswap 4 number.toNat = number.toNat

instance (message : Message) : Decidable message.Palindromic :=
  List.decidableBAll _ message.numbers

section Payload

variable {sender receiver : Host} (apart : sender.memory ≠ receiver.memory)

include apart

theorem append_eq_iff {one : UInt32} {left right : Bytes} :
    wireUint32 sender one ++ left = wireUint32 receiver one ++ right ↔
      byteswap 4 one.toNat = one.toNat ∧ left = right := by
  rw [← store_eq_iff apart one.toNat_lt]
  constructor
  · intro same
    exact List.append_inj same (by simp)
  · rintro ⟨first, second⟩
    exact congrArg₂ _ first second

theorem payload_eq_iff (message : Message) :
    message.payload sender = message.payload receiver ↔ message.Palindromic := by
  unfold Palindromic
  cases message <;>
    simp [payload, head, body, wireString, numbers, List.append_assoc,
      append_eq_iff apart]

end Payload

end Message

namespace RockMessageDecoder

/-- The header and what follows it when `serializeTo` sends a payload. -/
def sending (writer : Peer) (deflate : Transducer UInt8) (payload : Bytes) :
    Option (RockMsgHeader × Bytes) :=
  if writer.gzipMinLength ≤ UInt32.ofNat payload.length then
    (ZlibStream.compress deflate payload).map fun compressed =>
      (gzipHeader compressed, compressed)
  else some (plainHeader payload, payload)

def wire (host : Host) : Option (RockMsgHeader × Bytes) → Bytes
  | none => []
  | some (header, body) => (header.swapped host).bytes host ++ body

section Crossing

variable {writer reader : Peer} {env : Surroundings}
  {deflate inflate : Transducer UInt8} {heap : Nat → UInt8} {message : Message}
  {sender receiver : Host}

theorem serializeTo_sends (sized : (message.payload sender).length < 2 ^ 64 - 1) :
    ∃ rt calls, serializeTo writer env sender
      (ZlibStream.gzip deflate inflate sender heap) message ⟨true, [], 0⟩ =
        .done rt ⟨true, wire sender
          (sending writer deflate (message.payload sender)), calls⟩ := by
  unfold sending
  split
  · rename_i above
    rcases @serializeTo_gzip writer env sender deflate inflate heap ⟨true, [], 0⟩
      message rfl above sized with ⟨compressed, calls, coded, sent⟩ | ⟨rt, -, coded, sent⟩
    · rw [coded]
      exact ⟨_, calls, sent⟩
    · rw [coded]
      exact ⟨rt, 0, sent⟩
  · rename_i below
    obtain ⟨calls, sent⟩ := @serializeTo_plain writer env sender
      (ZlibStream.gzip deflate inflate sender heap) ⟨true, [], 0⟩ rfl message below
    exact ⟨_, calls, sent⟩

/-- A header and the bytes behind it are parsed to the message. -/
def Accepts (reader : Peer) (inflate : Transducer UInt8) (receiver : Host)
    (message : Message) (length : Nat) (flag : UInt8) (body : Bytes) : Prop :=
  0 < length ∧ length < 2 ^ 31 ∧ length ≤ body.length ∧
    length < reader.gzipMinLength.toNat ∧
    ∃ content, opened inflate flag (body.take length) = some content ∧
      message.payload receiver <+: content ∧ message.Short ∧
      (message.body ≠ [] ∨ (message.payload receiver).length <
        max defaultBaseSize (ByteArray.roundUp defaultBaseSize content.length))

theorem parseFrom_iff {header : RockMsgHeader} {body : Bytes} {socket : Socket}
    (connected : socket.connected = true)
    (transit : socket.transit = (header.swapped receiver).bytes receiver ++ body)
    (magic : header.magic = RockMsgHeader.s_rock_magic)
    (version : header.version = 0x1) :
    (∃ received, parseFrom reader env receiver
        (ZlibStream.gzip deflate inflate receiver heap) socket =
          .done (some message) received) ↔
      Accepts reader inflate receiver message header.length.toNat header.flag body := by
  constructor
  · rintro ⟨received, accepted⟩
    obtain ⟨raw, taken, split, length, -, -, positive, small, size, below, _, filled,
      middle, appended, parsed⟩ := accepted_framed connected accepted
    rw [transit] at split
    obtain ⟨rfl, rest⟩ := List.append_inj split (by rw [length]; simp)
    rw [RockMsgHeader.ofBytes_bytes, RockMsgHeader.swapped_swapped] at size
    rw [RockMsgHeader.ofBytes_bytes] at parsed
    have opens := (parsePayload_iff positive small appended).mp ⟨received, parsed⟩
    rw [rest, Accepts, size, List.take_left' rfl]
    exact ⟨positive, small, by simp, below, opens⟩
  · rintro ⟨positive, small, enough, below, opens⟩
    obtain ⟨_, filled, calls, appended, result⟩ := @parseFrom_header reader env receiver
      (ZlibStream.gzip deflate inflate receiver heap) socket header body connected
      transit magic version positive small enough
      (by rw [UInt32.le_iff_toNat_le]; omega)
    obtain ⟨after, parsed⟩ := (parsePayload_iff
      (by rw [List.length_take]; omega) (by rw [List.length_take]; omega)
      appended).mpr opens
    exact ⟨after, result.trans (Prog.catchAll_done parsed)⟩

/-- What `serializeTo` sends on one host is parsed to the message on another. -/
def Crosses (writer reader : Peer) (env : Surroundings)
    (deflate inflate : Transducer UInt8) (heap : Nat → UInt8) (message : Message)
    (sender receiver : Host) : Prop :=
  ∃ rt sent received,
    serializeTo writer env sender (ZlibStream.gzip deflate inflate sender heap)
      message ⟨true, [], 0⟩ = .done rt sent ∧
    parseFrom reader env receiver (ZlibStream.gzip deflate inflate receiver heap)
      sent = .done (some message) received

theorem sending_valid {payload body : Bytes} {header : RockMsgHeader}
    (leaves : sending writer deflate payload = some (header, body)) :
    header.magic = RockMsgHeader.s_rock_magic ∧ header.version = 0x1 := by
  unfold sending at leaves
  split at leaves
  · obtain ⟨compressed, -, same⟩ := Option.map_eq_some_iff.mp leaves
    cases same
    exact ⟨rfl, rfl⟩
  · cases leaves
    exact ⟨rfl, rfl⟩

theorem crosses_iff (sized : (message.payload sender).length < 2 ^ 64 - 1) :
    Crosses writer reader env deflate inflate heap message sender receiver ↔
      ∃ header body, sending writer deflate (message.payload sender) =
          some (header, body) ∧
        Accepts reader inflate receiver message
          (announced sender receiver header.length.toNat) header.flag body := by
  obtain ⟨rt, calls, sent⟩ := @serializeTo_sends writer env deflate inflate heap message
    sender sized
  have parsed : Crosses writer reader env deflate inflate heap message sender receiver ↔
      ∃ received, parseFrom reader env receiver
        (ZlibStream.gzip deflate inflate receiver heap)
        ⟨true, wire sender (sending writer deflate (message.payload sender)), calls⟩ =
          .done (some message) received := by
    unfold Crosses
    rw [sent]
    constructor
    · rintro ⟨_, _, received, same, parsed⟩
      obtain ⟨-, rfl⟩ := Outcome.done.inj same
      exact ⟨received, parsed⟩
    · rintro ⟨received, parsed⟩
      exact ⟨_, _, received, rfl, parsed⟩
  rw [parsed]
  cases leaves : sending writer deflate (message.payload sender) with
  | none =>
      obtain ⟨later, nothing⟩ := @parseFrom_drained reader env receiver
        (ZlibStream.gzip deflate inflate receiver heap) ⟨true, [], calls⟩ rfl rfl
      constructor
      · rintro ⟨received, parsed⟩
        cases nothing.symm.trans parsed
      · rintro ⟨header, body, ⟨⟩, -⟩
  | some pair =>
      obtain ⟨header, body⟩ := pair
      obtain ⟨magic, version⟩ := sending_valid leaves
      have arrives := @parseFrom_iff reader env deflate inflate heap message receiver
        (header.seen sender receiver) body
        ⟨true, wire sender (some (header, body)), calls⟩ rfl
        (congrArg (· ++ body) (RockMsgHeader.seen_bytes sender receiver header).symm)
        magic version
      rw [RockMsgHeader.seen_length, RockMsgHeader.seen_flag] at arrives
      rw [arrives]
      constructor
      · exact fun accepts => ⟨header, body, rfl, accepts⟩
      · rintro ⟨_, _, same, accepts⟩
        cases same
        exact accepts

/-- All that is sent is announced to the receiver, which takes it. -/
def Whole (reader : Peer) (sender receiver : Host) (message : Message)
    (body : Bytes) : Prop :=
  (Alike sender receiver ∨ byteswap 4 body.length = body.length) ∧
    0 < body.length ∧ body.length < 2 ^ 31 ∧
    body.length < reader.gzipMinLength.toNat ∧ message.Short ∧
    Readable receiver message

/-- Only a part of what was compressed is announced, and `inflate` makes the
message of it. -/
def Early (reader : Peer) (inflate : Transducer UInt8) (sender receiver : Host)
    (message : Message) (header : RockMsgHeader) (compressed : Bytes) : Prop :=
  header.flag = 0x1 ∧
    announced sender receiver header.length.toNat < compressed.length ∧
    Accepts reader inflate receiver message
      (announced sender receiver header.length.toNat) 0x1 compressed

theorem sending_opened (undoes : Transducer.Undoes inflate deflate)
    {payload body : Bytes} {header : RockMsgHeader}
    (leaves : sending writer deflate payload = some (header, body)) :
    header.length.toNat = body.length % 2 ^ 32 ∧
      opened inflate header.flag body = some payload ∧
      (header.flag = 0x1 ∨ header.flag = 0 ∧ body = payload) := by
  unfold sending at leaves
  split at leaves
  · obtain ⟨compressed, coded, same⟩ := Option.map_eq_some_iff.mp leaves
    cases same
    refine ⟨gzipHeader_length body, ?_, .inl rfl⟩
    rw [opened, if_pos (show (gzipHeader body).flag &&& 0x1 ≠ 0 by
      change ((0 : UInt8) ||| 0x1) &&& 0x1 ≠ 0
      decide)]
    exact ZlibStream.compress_converts
      (undoes.converts (ZlibStream.compress_ended (undoes.exhausts _) coded))
  · cases leaves
    refine ⟨UInt32.toNat_ofNat, ?_, .inr ⟨rfl, rfl⟩⟩
    rw [opened, if_neg (show ¬(plainHeader payload).flag &&& 0x1 ≠ 0 by
      change ¬(0 : UInt8) &&& 0x1 ≠ 0
      decide)]

theorem readable_iff (host : Host) (message : Message) :
    (message.body ≠ [] ∨ (message.payload host).length <
        max defaultBaseSize
          (ByteArray.roundUp defaultBaseSize (message.payload host).length)) ↔
      Readable host message :=
  or_congr_right (room_iff (by decide) (message.payload_pos host))

theorem accepts_comm (same : message.payload sender = message.payload receiver) :
    Accepts reader inflate sender message = Accepts reader inflate receiver message := by
  funext length flag body
  unfold Accepts
  rw [same]

theorem accepts_iff (undoes : Transducer.Undoes inflate deflate)
    (same : message.payload sender = message.payload receiver)
    {header : RockMsgHeader} {body : Bytes}
    (leaves : sending writer deflate (message.payload sender) =
      some (header, body)) :
    Accepts reader inflate receiver message
        (announced sender receiver header.length.toNat) header.flag body ↔
      Whole reader sender receiver message body ∨
        Early reader inflate sender receiver message header body := by
  obtain ⟨length, opens, flag⟩ := sending_opened undoes leaves
  have bound : announced sender receiver header.length.toNat < 2 ^ 32 :=
    announced_lt header.length.toNat_lt
  constructor
  · intro accepts
    obtain ⟨positive, small, enough, below, content, some, begins, short, inside⟩ := accepts
    rcases Nat.lt_or_eq_of_le enough with partly | whole
    · right
      rcases flag with flag | ⟨flag, rfl⟩
      · exact ⟨flag, partly, flag ▸
          ⟨positive, small, enough, below, content, some, begins, short, inside⟩⟩
      · exfalso
        rw [opened, flag, if_neg (by decide)] at some
        obtain rfl := Option.some.inj some
        have := begins.length_le
        rw [← same, List.length_take] at this
        omega
    · left
      rw [whole, List.take_length, opens] at some
      obtain rfl := Option.some.inj some
      rw [same, readable_iff] at inside
      rw [whole] at positive small below
      rw [length, Nat.mod_eq_of_lt (by omega)] at whole
      exact ⟨announced_eq_iff.mp whole, positive, small, below, short, inside⟩
  · rintro (⟨orders, positive, small, below, short, readable⟩ | ⟨flag, -, accepts⟩)
    · rw [length, Nat.mod_eq_of_lt (by omega), announced_eq_iff.mpr orders]
      refine ⟨positive, small, Nat.le_refl _, below, message.payload receiver, ?_,
        List.prefix_rfl, short, (readable_iff receiver message).mpr readable⟩
      rw [List.take_length, opens, same]
    · rw [flag]
      exact accepts

end Crossing

/-- The payload is the same on a little-endian and a big-endian host, whatever
their `BYTE_ORDER`, and what is sent on one is parsed to the message on the other,
exactly when every number in it reads the same from both ends and the header
announces what is sent, which the receiver takes. -/
theorem wire_format_iff {deflate inflate : Transducer UInt8}
    (undoes : Transducer.Undoes inflate deflate) (one two : Endian)
    (writer reader : Peer) (env : Surroundings) (heap : Nat → UInt8)
    (message : Message)
    (sized : (message.payload ⟨one, .little⟩).length < 2 ^ 64 - 1) :
    (message.payload ⟨one, .little⟩ = message.payload ⟨two, .big⟩ ∧
      Crosses writer reader env deflate inflate heap message ⟨one, .little⟩ ⟨two, .big⟩ ∧
      Crosses writer reader env deflate inflate heap message ⟨two, .big⟩ ⟨one, .little⟩) ↔
    message.Palindromic ∧
      ∃ header body,
        sending writer deflate (message.payload ⟨one, .little⟩) = some (header, body) ∧
        (Whole reader ⟨one, .little⟩ ⟨two, .big⟩ message body ∨
          Early reader inflate ⟨one, .little⟩ ⟨two, .big⟩ message header body) := by
  have apart : (⟨one, .little⟩ : Host).memory ≠ (⟨two, .big⟩ : Host).memory := by
    rintro ⟨⟩
  rw [← Message.payload_eq_iff apart message]
  refine and_congr_right fun same => ?_
  rw [crosses_iff sized, crosses_iff (same ▸ sized), ← same, announced_comm ⟨two, .big⟩,
    accepts_comm same, and_self]
  refine exists_congr fun header => exists_congr fun body => and_congr_right fun leaves => ?_
  exact accepts_iff undoes same leaves

/-- A request of zeros passes between hosts that know their memory. -/
theorem wire_format_zero :
    Message.payload ⟨.little, .little⟩ (.request ⟨⟨0, 0⟩, ⟨[]⟩⟩) =
      Message.payload ⟨.big, .big⟩ (.request ⟨⟨0, 0⟩, ⟨[]⟩⟩) ∧
    Crosses .client .client whole (.buffering id) (.buffering id) (fun _ => 0)
      (.request ⟨⟨0, 0⟩, ⟨[]⟩⟩) ⟨.little, .little⟩ ⟨.big, .big⟩ ∧
    Crosses .client .client whole (.buffering id) (.buffering id) (fun _ => 0)
      (.request ⟨⟨0, 0⟩, ⟨[]⟩⟩) ⟨.big, .big⟩ ⟨.little, .little⟩ := by
  have length :
      (Message.payload ⟨.little, .little⟩ (.request ⟨⟨0, 0⟩, ⟨[]⟩⟩)).length = 13 := rfl
  apply (wire_format_iff (Transducer.buffering_undoes fun _ => rfl) .little .big .client
    .client whole (fun _ => 0) (.request ⟨⟨0, 0⟩, ⟨[]⟩⟩) (by rw [length]; omega)).mpr
  refine ⟨by decide, _, _, if_neg (by decide), .inl ⟨.inl (by decide), ?_, ?_, ?_, ?_, ?_⟩⟩
  · rw [length]
    omega
  · rw [length]
    omega
  · rw [length]
    decide
  · exact Message.short_of_payload ⟨.little, .little⟩ (by rw [length]; omega)
  · exact .inr (by decide)

/-- A request from a little-endian host is refused by a big-endian one where
`BYTE_ORDER` is `BIG_ENDIAN` on both, and where it is right on both becomes another
request. -/
theorem wire_format_differs :
    Message.payload ⟨.big, .little⟩ (.request ⟨⟨1, 2⟩, ⟨[]⟩⟩) ≠
      Message.payload ⟨.big, .big⟩ (.request ⟨⟨1, 2⟩, ⟨[]⟩⟩) ∧
    (∃ rt sent received,
      serializeTo .client whole ⟨.big, .little⟩ (fun _ _ => .writeError)
          (.request ⟨⟨1, 2⟩, ⟨[]⟩⟩) ⟨true, [], 0⟩ = .done rt sent ∧
      parseFrom .client whole ⟨.big, .big⟩ (fun _ _ => .writeError) sent =
        .done none received) ∧
    ∃ rt sent received,
      serializeTo .client whole ⟨.little, .little⟩ (fun _ _ => .writeError)
          (.request ⟨⟨1, 2⟩, ⟨[]⟩⟩) ⟨true, [], 0⟩ = .done rt sent ∧
      parseFrom .client whole ⟨.big, .big⟩ (fun _ _ => .writeError) sent =
        .done (some (.request ⟨⟨16777216, 33554432⟩, ⟨[]⟩⟩)) received := by
  refine ⟨by decide, ?_, ?_⟩
  · obtain ⟨calls, sent⟩ :=
      @serializeTo_spec .client whole ⟨.big, .little⟩ (fun _ _ => .writeError)
        ⟨true, [], 0⟩ rfl (.request ⟨⟨1, 2⟩, ⟨[]⟩⟩) (by decide) (by decide)
    obtain ⟨later, refused⟩ :=
      @parseFrom_refused .client whole ⟨.big, .big⟩ (fun _ _ => .writeError)
        (Socket.gave ⟨true, [], 0⟩ _ calls)
        { RockMsgHeader.new with length := 218103808 }
        (Message.payload ⟨.big, .little⟩ (.request ⟨⟨1, 2⟩, ⟨[]⟩⟩)) rfl rfl (by decide)
    exact ⟨_, _, _, sent, refused⟩
  · have same : Message.payload ⟨.little, .little⟩ (.request ⟨⟨1, 2⟩, ⟨[]⟩⟩) =
        Message.payload ⟨.big, .big⟩ (.request ⟨⟨16777216, 33554432⟩, ⟨[]⟩⟩) := by
      decide
    obtain ⟨calls, sent⟩ :=
      @serializeTo_spec .client whole ⟨.little, .little⟩ (fun _ _ => .writeError)
        ⟨true, [], 0⟩ rfl (.request ⟨⟨1, 2⟩, ⟨[]⟩⟩) (by decide) (by decide)
    obtain ⟨later, received⟩ :=
      @parseFrom_message .client whole ⟨.big, .big⟩ (fun _ _ => .writeError)
        (Socket.gave ⟨true, [], 0⟩ (frame ⟨.little, .little⟩ _) calls)
        (.request ⟨⟨16777216, 33554432⟩, ⟨[]⟩⟩) [] rfl rfl (by decide) (by decide)
        (.inr (by decide))
    exact ⟨_, _, _, sent, received⟩

end RockMessageDecoder

end Sylar
