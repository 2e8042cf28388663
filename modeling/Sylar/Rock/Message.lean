import Sylar.Buffer.Content

namespace Sylar

open Logic Data

/-! The messages of `protocol.h` and `rock_protocol.h`. The time a request was
made is not sent and is left out. -/

structure Request where
  sn : UInt32
  cmd : UInt32
  deriving DecidableEq, Repr

structure Response where
  sn : UInt32
  cmd : UInt32
  result : UInt32
  resultStr : Bytes
  deriving DecidableEq, Repr

structure Notify where
  notify : UInt32
  deriving DecidableEq, Repr

structure RockBody where
  body : Bytes
  deriving DecidableEq, Repr

structure RockRequest extends Request, RockBody
  deriving DecidableEq, Repr

structure RockResponse extends Response, RockBody
  deriving DecidableEq, Repr

structure RockNotify extends Notify, RockBody
  deriving DecidableEq, Repr

inductive Message
  | request (message : RockRequest)
  | response (message : RockResponse)
  | notify (message : RockNotify)
  deriving DecidableEq, Repr

namespace Message

def REQUEST : UInt8 := 1

def RESPONSE : UInt8 := 2

def NOTIFY : UInt8 := 3

def getType : Message → UInt8
  | .request _ => REQUEST
  | .response _ => RESPONSE
  | .notify _ => NOTIFY

end Message

section Serialize

variable (host : Host)

def Request.serializeToByteArray (type : UInt8) (message : Request) :
    Method Bool := do
  ByteArray.writeFuint8 type
  ByteArray.writeFuint32 host message.sn
  ByteArray.writeFuint32 host message.cmd
  pure true

def Response.serializeToByteArray (type : UInt8) (message : Response) :
    Method Bool := do
  ByteArray.writeFuint8 type
  ByteArray.writeFuint32 host message.sn
  ByteArray.writeFuint32 host message.cmd
  ByteArray.writeFuint32 host message.result
  ByteArray.writeStringF32 host message.resultStr
  pure true

def Notify.serializeToByteArray (type : UInt8) (message : Notify) :
    Method Bool := do
  ByteArray.writeFuint8 type
  ByteArray.writeFuint32 host message.notify
  pure true

def RockBody.serializeToByteArray (message : RockBody) : Method Bool := do
  ByteArray.writeStringF32 host message.body
  pure true

def RockRequest.serializeToByteArray (message : RockRequest) : Method Bool :=
  Prog.catchAll (do
    let v ← message.toRequest.serializeToByteArray host Message.REQUEST
    let w ← message.toRockBody.serializeToByteArray host
    pure (v && w)) (pure false)

def RockResponse.serializeToByteArray (message : RockResponse) : Method Bool :=
  Prog.catchAll (do
    let v ← message.toResponse.serializeToByteArray host Message.RESPONSE
    let w ← message.toRockBody.serializeToByteArray host
    pure (v && w)) (pure false)

def RockNotify.serializeToByteArray (message : RockNotify) : Method Bool :=
  Prog.catchAll (do
    let v ← message.toNotify.serializeToByteArray host Message.NOTIFY
    let w ← message.toRockBody.serializeToByteArray host
    pure (v && w)) (pure false)

def Message.serializeToByteArray : Message → Method Bool
  | .request message => message.serializeToByteArray host
  | .response message => message.serializeToByteArray host
  | .notify message => message.serializeToByteArray host

/-- The default `base_size` of a `ByteArray`. -/
def defaultBaseSize : Nat := 4096

def Message.toByteArray (heap : Nat → UInt8) (message : Message) :
    Prog σ Exception (Option ByteArray) := do
  let (serialized, ba) ←
    Prog.on (ByteArray.new host.byteOrder heap defaultBaseSize)
      (message.serializeToByteArray host)
  if serialized then pure (some ba) else pure none

end Serialize

section Parse

variable (host : Host)

/-! `parseFromByteArray` of the base classes only returns true; the message is
what it assigned. -/

def Request.parseFromByteArray : Method Request := do
  let sn ← ByteArray.readFuint32 host
  let cmd ← ByteArray.readFuint32 host
  pure ⟨sn, cmd⟩

def Response.parseFromByteArray : Method Response := do
  let sn ← ByteArray.readFuint32 host
  let cmd ← ByteArray.readFuint32 host
  let result ← ByteArray.readFuint32 host
  let resultStr ← ByteArray.readStringF32 host
  pure ⟨sn, cmd, result, resultStr⟩

def Notify.parseFromByteArray : Method Notify := do
  let notify ← ByteArray.readFuint32 host
  pure ⟨notify⟩

def RockBody.parseFromByteArray : Method RockBody := do
  let body ← ByteArray.readStringF32 host
  pure ⟨body⟩

/-! Those of the messages catch every exception and then return false, here
`none`. -/

def RockRequest.parseFromByteArray : Method (Option RockRequest) :=
  Prog.catchAll (do
    let head ← Request.parseFromByteArray host
    let body ← RockBody.parseFromByteArray host
    pure (some ⟨head, body⟩)) (pure none)

def RockResponse.parseFromByteArray : Method (Option RockResponse) :=
  Prog.catchAll (do
    let head ← Response.parseFromByteArray host
    let body ← RockBody.parseFromByteArray host
    pure (some ⟨head, body⟩)) (pure none)

def RockNotify.parseFromByteArray : Method (Option RockNotify) :=
  Prog.catchAll (do
    let head ← Notify.parseFromByteArray host
    let body ← RockBody.parseFromByteArray host
    pure (some ⟨head, body⟩)) (pure none)

/-- The switch over the message type with which `parseFrom` ends. -/
def Message.parseFromByteArray : Method (Option Message) := do
  let type ← ByteArray.readFuint8
  if type = Message.REQUEST then
    return (← RockRequest.parseFromByteArray host).map .request
  else if type = Message.RESPONSE then
    return (← RockResponse.parseFromByteArray host).map .response
  else if type = Message.NOTIFY then
    return (← RockNotify.parseFromByteArray host).map .notify
  else pure none

end Parse

/-! The encoding of a message. -/

section Payload

variable (host : Host)

def wireUint32 (value : UInt32) : Bytes := host.store 4 value.toNat

def wireString (value : Bytes) : Bytes :=
  wireUint32 host (UInt32.ofNat value.length) ++ value

namespace Message

/-- What precedes the body. -/
def head : Message → Bytes
  | .request message =>
      [REQUEST] ++ (wireUint32 host message.sn ++ wireUint32 host message.cmd)
  | .response message =>
      [RESPONSE] ++ (wireUint32 host message.sn ++
        (wireUint32 host message.cmd ++ (wireUint32 host message.result ++
          wireString host message.resultStr)))
  | .notify message => [NOTIFY] ++ wireUint32 host message.notify

def body : Message → Bytes
  | .request message => message.body
  | .response message => message.body
  | .notify message => message.body

def payload (message : Message) : Bytes :=
  message.head host ++ wireString host message.body

end Message

@[simp] theorem wireUint32_length (value : UInt32) :
    (wireUint32 host value).length = 4 := host.store_length 4 value.toNat

@[simp] theorem wireString_length (value : Bytes) :
    (wireString host value).length = 4 + value.length := by
  rw [wireString, List.length_append, wireUint32_length]

theorem Message.payload_pos (message : Message) :
    0 < (message.payload host).length := by
  rw [payload, List.length_append, wireString_length]
  omega

namespace Message

def strings : Message → List Bytes
  | .request message => [message.body]
  | .response message => [message.resultStr, message.body]
  | .notify message => [message.body]

/-- The length of each string fits its length field. -/
def Short (message : Message) : Prop :=
  ∀ value ∈ message.strings, value.length < 2 ^ 32

theorem body_mem (message : Message) : message.body ∈ message.strings := by
  cases message <;> simp [strings, body]

theorem short_of_payload {message : Message}
    (small : (message.payload host).length < 2 ^ 32) : message.Short := by
  intro value member
  rw [payload, List.length_append, wireString_length] at small
  cases message with
  | request message =>
      obtain rfl := List.mem_singleton.mp member
      simp only [body] at small
      omega
  | response message =>
      simp only [head, body, List.length_append, wireString_length] at small
      rcases List.mem_cons.mp member with rfl | member
      · omega
      · obtain rfl := List.mem_singleton.mp member
        omega
  | notify message =>
      obtain rfl := List.mem_singleton.mp member
      simp only [body] at small
      omega

end Message

end Payload

/-! Serializing writes the payload. -/

section SerializeSpec

variable {host : Host}

theorem ByteArray.Appends.catchAll {order : Endian} {body handler : Method α}
    (appends : Appends order body bytes value) :
    Appends order (Prog.catchAll body handler) bytes value := by
  intro ba inv native ended
  obtain ⟨after, result, appended⟩ := appends inv native ended
  exact ⟨after, Prog.catchAll_done result, appended⟩

open Sylar.ByteArray (Appends)

/-- A head and a body that each append their part and return true. -/
theorem serialize_parts {head body : Method Bool} {handler : Method Bool}
    (first : Appends host.byteOrder head left true)
    (second : Appends host.byteOrder body right true) :
    Appends host.byteOrder
      (Prog.catchAll (do
        let v ← head
        let w ← body
        pure (v && w)) handler) (left ++ right) true :=
  (first.bind (second.map fun w => true && w)).catchAll

theorem RockBody.serialize_spec (message : RockBody) :
    Appends host.byteOrder (message.serializeToByteArray host)
      (wireString host message.body) true :=
  (Appends.writeStringF32 host message.body).map fun _ => true

theorem Request.serialize_spec (type : UInt8) (message : Request) :
    Appends host.byteOrder (message.serializeToByteArray host type)
      ([type] ++ (wireUint32 host message.sn ++ wireUint32 host message.cmd))
      true := by
  unfold Request.serializeToByteArray
  refine .bind (.writeFuint8 type) ?_
  refine .bind (.writeFuint32 host message.sn) ?_
  exact (Appends.writeFuint32 host message.cmd).map fun _ => true

theorem Response.serialize_spec (type : UInt8) (message : Response) :
    Appends host.byteOrder (message.serializeToByteArray host type)
      ([type] ++ (wireUint32 host message.sn ++
        (wireUint32 host message.cmd ++ (wireUint32 host message.result ++
          wireString host message.resultStr)))) true := by
  unfold Response.serializeToByteArray
  refine .bind (.writeFuint8 type) ?_
  refine .bind (.writeFuint32 host message.sn) ?_
  refine .bind (.writeFuint32 host message.cmd) ?_
  refine .bind (.writeFuint32 host message.result) ?_
  exact (Appends.writeStringF32 host message.resultStr).map fun _ => true

theorem Notify.serialize_spec (type : UInt8) (message : Notify) :
    Appends host.byteOrder (message.serializeToByteArray host type)
      ([type] ++ wireUint32 host message.notify) true := by
  unfold Notify.serializeToByteArray
  refine .bind (.writeFuint8 type) ?_
  exact (Appends.writeFuint32 host message.notify).map fun _ => true

theorem Message.serialize_spec (message : Message) :
    Appends host.byteOrder (message.serializeToByteArray host)
      (message.payload host) true := by
  cases message with
  | request message =>
      exact serialize_parts (Request.serialize_spec _ _)
        (RockBody.serialize_spec _)
  | response message =>
      exact serialize_parts (Response.serialize_spec _ _)
        (RockBody.serialize_spec _)
  | notify message =>
      exact serialize_parts (Notify.serialize_spec _ _)
        (RockBody.serialize_spec _)

end SerializeSpec

/-! Parsing the payload returns the message, unless the body is empty and its
length field ends with the last node. -/

section ParseSpec

open Sylar.ByteArray (Cursor)

variable {host : Host} {capacity position : Nat} {rest : Bytes}
  {ba : ByteArray}

theorem RockBody.parse_spec {message : RockBody}
    (small : message.body.length < 2 ^ 32)
    (cursor : Cursor host.byteOrder capacity position
      (wireString host message.body ++ rest) ba)
    (inside : message.body ≠ [] ∨ position + 4 < capacity) :
    ∃ after, RockBody.parseFromByteArray host ba = .done message after := by
  rw [wireString, wireUint32, List.append_assoc] at cursor
  obtain ⟨after, result, _⟩ := cursor.readStringF32 small inside
  exact ⟨after, Prog.bind_done result⟩

theorem RockBody.parse_null {message : RockBody} (empty : message.body = [])
    (cursor : Cursor host.byteOrder capacity position
      (wireString host message.body ++ rest) ba)
    (ended : position + 4 = capacity) :
    RockBody.parseFromByteArray host ba = .fault := by
  rw [empty, wireString, List.append_nil] at cursor
  exact Prog.bind_fault (cursor.readStringF32_null ended)

theorem Request.parse_spec {message : Request}
    (cursor : Cursor host.byteOrder capacity position
      (wireUint32 host message.sn ++ (wireUint32 host message.cmd ++ rest)) ba) :
    ∃ after, Request.parseFromByteArray host ba = .done message after ∧
      Cursor host.byteOrder capacity (position + 8) rest after := by
  obtain ⟨first, sn, cursor⟩ := cursor.readFuint32
  obtain ⟨after, cmd, cursor⟩ := cursor.readFuint32
  refine ⟨after, ?_, cursor⟩
  unfold Request.parseFromByteArray
  rw [Prog.bind_done sn, Prog.bind_done cmd]
  rfl

theorem Response.parse_spec {message : Response}
    (small : message.resultStr.length < 2 ^ 32) (present : rest ≠ [])
    (cursor : Cursor host.byteOrder capacity position
      (wireUint32 host message.sn ++ (wireUint32 host message.cmd ++
        (wireUint32 host message.result ++
          (wireString host message.resultStr ++ rest)))) ba) :
    ∃ after, Response.parseFromByteArray host ba = .done message after ∧
      Cursor host.byteOrder capacity
        (position + (16 + message.resultStr.length)) rest after := by
  have fits := cursor.end_le
  have more := List.length_pos_iff.mpr present
  simp only [List.length_append, wireUint32_length, wireString_length] at fits
  obtain ⟨first, sn, cursor⟩ := cursor.readFuint32
  obtain ⟨second, cmd, cursor⟩ := cursor.readFuint32
  obtain ⟨third, result, cursor⟩ := cursor.readFuint32
  rw [wireString, List.append_assoc] at cursor
  obtain ⟨after, resultStr, cursor⟩ :=
    cursor.readStringF32 small (.inr (by omega))
  refine ⟨after, ?_, ?_⟩
  · unfold Response.parseFromByteArray
    rw [Prog.bind_done sn, Prog.bind_done cmd, Prog.bind_done result,
      Prog.bind_done resultStr]
    rfl
  · rwa [show position + 4 + 4 + 4 + (4 + message.resultStr.length) =
      position + (16 + message.resultStr.length) by omega] at cursor

theorem Notify.parse_spec {message : Notify}
    (cursor : Cursor host.byteOrder capacity position
      (wireUint32 host message.notify ++ rest) ba) :
    ∃ after, Notify.parseFromByteArray host ba = .done message after ∧
      Cursor host.byteOrder capacity (position + 4) rest after := by
  obtain ⟨after, notify, cursor⟩ := cursor.readFuint32
  exact ⟨after, Prog.bind_done notify, cursor⟩

theorem parse_parts (host : Host) (make : α → RockBody → β)
    {head : Method α} {middle : ByteArray} (first : head ba = .done value middle)
    (body : RockBody) :
    (∀ after, RockBody.parseFromByteArray host middle = .done body after →
      Prog.catchAll (do
        let head ← head
        let body ← RockBody.parseFromByteArray host
        pure (some (make head body))) (pure none) ba =
          .done (some (make value body)) after) ∧
    (RockBody.parseFromByteArray host middle = .fault →
      Prog.catchAll (do
        let head ← head
        let body ← RockBody.parseFromByteArray host
        pure (some (make head body))) (pure none) ba = .fault) := by
  constructor
  · intro after second
    apply Prog.catchAll_done
    rw [Prog.bind_done first, Prog.bind_done second]
    rfl
  · intro second
    apply Prog.catchAll_fault
    rw [Prog.bind_done first, Prog.bind_fault second]

/-- Parsing reaches the length field of the body, and ends as the body does. -/
theorem Message.parse_head (message : Message) (short : message.Short)
    (cursor : Cursor host.byteOrder capacity 0 (message.payload host ++ rest) ba) :
    ∃ middle,
      Cursor host.byteOrder capacity (message.head host).length
        (wireString host message.body ++ rest) middle ∧
      (∀ after,
        RockBody.parseFromByteArray host middle = .done ⟨message.body⟩ after →
        Message.parseFromByteArray host ba = .done (some message) after) ∧
      (RockBody.parseFromByteArray host middle = .fault →
        Message.parseFromByteArray host ba = .fault) := by
  have body_present : wireString host message.body ++ rest ≠ [] := by
    rw [← List.length_pos_iff, List.length_append, wireString_length]
    omega
  rw [payload, List.append_assoc] at cursor
  cases message with
  | request message =>
      rw [head, List.append_assoc, List.append_assoc] at cursor
      obtain ⟨first, type, cursor⟩ := cursor.readFuint8
      obtain ⟨middle, parsed, cursor⟩ := Request.parse_spec cursor
      have ⟨done, fault⟩ :=
        parse_parts host RockRequest.mk parsed message.toRockBody
      refine ⟨middle, ?_, ?_, ?_⟩
      · simpa [head] using cursor
      · intro after second
        unfold Message.parseFromByteArray
        rw [Prog.bind_done type]
        exact Prog.bind_done (done after second)
      · intro second
        unfold Message.parseFromByteArray
        rw [Prog.bind_done type]
        exact Prog.bind_fault (fault second)
  | response message =>
      simp only [head, List.append_assoc] at cursor
      obtain ⟨first, type, cursor⟩ := cursor.readFuint8
      obtain ⟨middle, parsed, cursor⟩ :=
        Response.parse_spec (short _ (by simp [strings])) body_present cursor
      have ⟨done, fault⟩ :=
        parse_parts host RockResponse.mk parsed message.toRockBody
      refine ⟨middle, ?_, ?_, ?_⟩
      · convert cursor using 1
        simp only [head, List.length_append, wireString_length,
          wireUint32_length, List.length_singleton]
        omega
      · intro after second
        unfold Message.parseFromByteArray
        rw [Prog.bind_done type]
        exact Prog.bind_done (done after second)
      · intro second
        unfold Message.parseFromByteArray
        rw [Prog.bind_done type]
        exact Prog.bind_fault (fault second)
  | notify message =>
      rw [head, List.append_assoc] at cursor
      obtain ⟨first, type, cursor⟩ := cursor.readFuint8
      obtain ⟨middle, parsed, cursor⟩ := Notify.parse_spec cursor
      have ⟨done, fault⟩ :=
        parse_parts host RockNotify.mk parsed message.toRockBody
      refine ⟨middle, ?_, ?_, ?_⟩
      · simpa [head] using cursor
      · intro after second
        unfold Message.parseFromByteArray
        rw [Prog.bind_done type]
        exact Prog.bind_done (done after second)
      · intro second
        unfold Message.parseFromByteArray
        rw [Prog.bind_done type]
        exact Prog.bind_fault (fault second)

theorem Message.parse_first {message : Message} (short : message.Short)
    (cursor : Cursor host.byteOrder capacity 0 (message.payload host ++ rest) ba)
    (inside : message.body ≠ [] ∨ (message.payload host).length < capacity) :
    ∃ after, Message.parseFromByteArray host ba =
      .done (some message) after := by
  obtain ⟨middle, reached, done, _⟩ := message.parse_head short cursor
  rw [payload, List.length_append, wireString_length] at inside
  obtain ⟨after, parsed⟩ := @RockBody.parse_spec _ _ _ _ _ ⟨message.body⟩
    (short _ message.body_mem) reached (by
      rcases inside with nonempty | inside
      · exact .inl nonempty
      · exact .inr (by omega))
  exact ⟨after, done after parsed⟩

theorem Message.parse_first_null {message : Message} (short : message.Short)
    (cursor : Cursor host.byteOrder capacity 0 (message.payload host ++ rest) ba)
    (empty : message.body = [])
    (ended : (message.payload host).length = capacity) :
    Message.parseFromByteArray host ba = .fault := by
  obtain ⟨middle, reached, _, fault⟩ := message.parse_head short cursor
  rw [payload, List.length_append, wireString_length, empty,
    List.length_nil] at ended
  exact fault (@RockBody.parse_null _ _ _ _ _ ⟨message.body⟩ empty reached ended)

theorem Message.parse_spec {message : Message}
    (small : (message.payload host).length < 2 ^ 32)
    (cursor : Cursor host.byteOrder capacity 0 (message.payload host) ba)
    (inside : message.body ≠ [] ∨ (message.payload host).length < capacity) :
    ∃ after, Message.parseFromByteArray host ba =
      .done (some message) after := by
  rw [← List.append_nil (message.payload host)] at cursor
  exact Message.parse_first (short_of_payload host small) cursor inside

theorem Message.parse_null {message : Message}
    (small : (message.payload host).length < 2 ^ 32)
    (cursor : Cursor host.byteOrder capacity 0 (message.payload host) ba)
    (empty : message.body = [])
    (ended : (message.payload host).length = capacity) :
    Message.parseFromByteArray host ba = .fault := by
  rw [← List.append_nil (message.payload host)] at cursor
  exact Message.parse_first_null (short_of_payload host small) cursor empty ended

end ParseSpec

end Sylar
