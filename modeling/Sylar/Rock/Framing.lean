import Sylar.Rock.Decoder

namespace Sylar

open Logic Data

namespace RockMessageDecoder

/-! Messages across a connection. -/

section Runs

variable (peer : Peer) (env : Surroundings) (host : Host) (gzip : Gzip)

def serializeAll : List Message → Session (List Int)
  | [] => pure []
  | message :: messages => do
      let rt ← serializeTo peer env host gzip message
      let rts ← serializeAll messages
      pure (rt :: rts)

/-- `count` successive calls of `parseFrom`. -/
def parseAll : Nat → Session (List (Option Message))
  | 0 => pure []
  | count + 1 => do
      let message ← parseFrom peer env host gzip
      let messages ← parseAll count
      pure (message :: messages)

end Runs

/-- The payload is below the compression threshold of both ends. -/
def Plain (host : Host) (sender receiver : Peer) (message : Message) : Prop :=
  (message.payload host).length < sender.gzipMinLength.toNat ∧
    (message.payload host).length < receiver.gzipMinLength.toNat

instance (host : Host) (sender receiver : Peer) (message : Message) :
    Decidable (Plain host sender receiver message) :=
  inferInstanceAs (Decidable (_ ∧ _))

/-- The nodes a payload fills have room after it unless it ends with the last
of them. -/
theorem room_iff {base count : Nat} (positive : 0 < base) (some : 0 < count) :
    count < max base (ByteArray.roundUp base count) ↔ count % base ≠ 0 := by
  have above := ByteArray.le_roundUp positive count
  constructor
  · intro room whole
    obtain ⟨nodes, rfl⟩ := Nat.dvd_of_mod_eq_zero whole
    have reach := @ByteArray.roundUp_le base (base * nodes) nodes positive
      (Nat.le_refl _)
    have first : base ≤ base * nodes :=
      Nat.le_mul_of_pos_right base (Nat.pos_of_mul_pos_left some)
    omega
  · intro partly
    rcases Nat.lt_or_ge count (ByteArray.roundUp base count) with inside | full
    · omega
    · exfalso
      apply partly
      rw [show count = base * ((count + base - 1) / base) from
        Nat.le_antisymm above full]
      exact Nat.mul_mod_right _ _

variable {peer : Peer} {env : Surroundings} {host : Host} {gzip : Gzip}
  {socket : Socket} {message : Message} {rest : Bytes}

theorem parseFrom_message (connected : socket.connected = true)
    (transit : socket.transit = frame host (message.payload host) ++ rest)
    (small : (message.payload host).length < 2 ^ 31)
    (plain : (message.payload host).length < peer.gzipMinLength.toNat)
    (inside : message.body ≠ [] ∨
      (message.payload host).length % defaultBaseSize ≠ 0) :
    ∃ calls, parseFrom peer env host gzip socket =
      .done (some message) { socket with transit := rest, calls := calls } := by
  obtain ⟨ba, calls, cursor, result⟩ :=
    @parseFrom_spec peer env host gzip socket connected _ _ transit
      (message.payload_pos host) small plain
  obtain ⟨after, parsed⟩ :=
    Message.parse_spec (by omega) cursor (by
      rcases inside with nonempty | partly
      · exact .inl nonempty
      · exact .inr ((room_iff (by decide) (message.payload_pos host)).mpr partly))
  refine ⟨calls, result.trans (Prog.catchAll_done ?_)⟩
  rw [Prog.bind_done (Prog.on_done _ parsed)]
  rfl

/-- An empty body that starts at the end of the last node is read through a
null `m_cur`. -/
theorem parseFrom_null (connected : socket.connected = true)
    (transit : socket.transit = frame host (message.payload host) ++ rest)
    (small : (message.payload host).length < 2 ^ 31)
    (plain : (message.payload host).length < peer.gzipMinLength.toNat)
    (empty : message.body = [])
    (ended : (message.payload host).length % defaultBaseSize = 0) :
    parseFrom peer env host gzip socket = .fault := by
  obtain ⟨ba, calls, cursor, result⟩ :=
    @parseFrom_spec peer env host gzip socket connected _ _ transit
      (message.payload_pos host) small plain
  have bound := @ByteArray.le_roundUp defaultBaseSize (by decide)
    (message.payload host).length
  have full := not_congr (room_iff (show 0 < defaultBaseSize by decide)
    (message.payload_pos host))
  have last : (message.payload host).length =
      max defaultBaseSize (ByteArray.roundUp defaultBaseSize
        (message.payload host).length) := by
    have := full.mpr (not_not.mpr ended)
    omega
  exact result.trans (Prog.catchAll_fault (Prog.bind_fault
    (Prog.on_fault _ (Message.parse_null (by omega) cursor empty last))))

/-! Requests and notifications: the body is the first string of the payload,
so an empty one starts inside the first node. -/

theorem inside_of_outgoing (outgoing : message.getType ≠ Message.RESPONSE) :
    message.body ≠ [] ∨
      (message.payload host).length % defaultBaseSize ≠ 0 := by
  by_cases empty : message.body = []
  · right
    rw [Message.payload, List.length_append, wireString_length, empty]
    cases message with
    | request message => simp [Message.head, defaultBaseSize]
    | response message => exact absurd rfl outgoing
    | notify message => simp [Message.head, defaultBaseSize]
  · exact .inl empty

def frames (host : Host) (messages : List Message) : Bytes :=
  messages.flatMap fun message => frame host (message.payload host)

theorem serializeAll_spec {messages : List Message}
    (connected : socket.connected = true)
    (small : ∀ message ∈ messages, (message.payload host).length < 2 ^ 31)
    (plain : ∀ message ∈ messages,
      (message.payload host).length < peer.gzipMinLength.toNat) :
    ∃ calls, serializeAll peer env host gzip messages socket =
      .done
        (messages.map fun message =>
          toInt32 (frame host (message.payload host)).length)
        (socket.gave (frames host messages) calls) := by
  induction messages generalizing socket with
  | nil =>
      refine ⟨socket.calls, ?_⟩
      rw [frames, List.flatMap_nil, Socket.gave_nil]
      rfl
  | cons message messages ih =>
      obtain ⟨first, sent⟩ :=
        @serializeTo_spec peer env host gzip socket connected message
          (small message (by simp)) (plain message (by simp))
      obtain ⟨calls, rest⟩ :=
        @ih (socket.gave (frame host (message.payload host)) first) connected
          (fun other member => small other (by simp [member]))
          (fun other member => plain other (by simp [member]))
      refine ⟨calls, ?_⟩
      unfold serializeAll
      rw [Prog.bind_done sent, Prog.bind_done rest, Socket.gave_gave]
      rfl

theorem parseAll_spec {messages : List Message}
    (connected : socket.connected = true)
    (transit : socket.transit = frames host messages ++ rest)
    (small : ∀ message ∈ messages, (message.payload host).length < 2 ^ 31)
    (plain : ∀ message ∈ messages,
      (message.payload host).length < peer.gzipMinLength.toNat)
    (outgoing : ∀ message ∈ messages, message.getType ≠ Message.RESPONSE) :
    ∃ calls, parseAll peer env host gzip messages.length socket =
      .done (messages.map some)
        { socket with transit := rest, calls := calls } := by
  induction messages generalizing socket with
  | nil =>
      refine ⟨socket.calls, ?_⟩
      rw [frames, List.flatMap_nil, List.nil_append] at transit
      rw [← transit]
      rfl
  | cons message messages ih =>
      rw [frames, List.flatMap_cons, List.append_assoc] at transit
      obtain ⟨first, parsed⟩ :=
        @parseFrom_message peer env host gzip socket message _ connected transit
          (small message (by simp)) (plain message (by simp))
          (inside_of_outgoing (outgoing message (by simp)))
      obtain ⟨calls, others⟩ :=
        @ih { socket with
            transit := frames host messages ++ rest
            calls := first } connected rfl
          (fun other member => small other (by simp [member]))
          (fun other member => plain other (by simp [member]))
          (fun other member => outgoing other (by simp [member]))
      refine ⟨calls, ?_⟩
      simp only [List.length_cons, parseAll]
      rw [Prog.bind_done parsed]
      exact Prog.bind_done others

theorem client_small {receiver : Peer}
    (plain : Plain host .client receiver message) :
    (message.payload host).length < 2 ^ 31 :=
  plain.1.trans (by decide)

/-- Request direction: what the client sends is what the server receives, for
every way the stream calls split the bytes. -/
theorem requests_arrive (env : Surroundings) (host : Host) (gzip : Gzip)
    (server : Peer) (messages : List Message)
    (outgoing : ∀ message ∈ messages, message.getType ≠ Message.RESPONSE)
    (plain : ∀ message ∈ messages, Plain host .client server message) :
    ∃ rts sent received,
      serializeAll .client env host gzip messages ⟨true, [], 0⟩ =
        .done rts sent ∧
      parseAll server env host gzip messages.length sent =
        .done (messages.map some) received ∧
      received.transit = [] := by
  have small : ∀ message ∈ messages,
      (message.payload host).length < 2 ^ 31 :=
    fun message member => client_small (plain message member)
  obtain ⟨calls, sent⟩ :=
    @serializeAll_spec .client env host gzip ⟨true, [], 0⟩ messages rfl small
      fun message member => (plain message member).1
  obtain ⟨later, received⟩ :=
    @parseAll_spec server env host gzip
      (Socket.gave ⟨true, [], 0⟩ (frames host messages) calls) [] messages rfl
      (List.append_nil _).symm small
      (fun message member => (plain message member).2) outgoing
  exact ⟨_, _, _, sent, received, rfl⟩

/-- A request without a body and a notification, moved one byte at a time. -/
theorem requests_arrive_bytewise :
    ∃ rts sent received,
      serializeAll .client
          ⟨fun _ limit => min 1 limit, fun _ _ => 0, by omega, by omega⟩
          ⟨.little, .little⟩ (fun _ _ => .writeError)
          [.request ⟨⟨7, 1⟩, ⟨[]⟩⟩, .notify ⟨⟨3⟩, ⟨[1, 2]⟩⟩] ⟨true, [], 0⟩ =
        .done rts sent ∧
      parseAll .client
          ⟨fun _ limit => min 1 limit, fun _ _ => 0, by omega, by omega⟩
          ⟨.little, .little⟩ (fun _ _ => .writeError) 2 sent =
        .done [some (.request ⟨⟨7, 1⟩, ⟨[]⟩⟩),
          some (.notify ⟨⟨3⟩, ⟨[1, 2]⟩⟩)] received ∧
      received.transit = [] :=
  requests_arrive _ _ _ .client _ (by decide) (by decide)

/-! Responses carry two strings, so an empty body can start anywhere. -/

theorem response_payload_length (host : Host) (response : RockResponse) :
    ((Message.response response).payload host).length =
      21 + response.resultStr.length + response.body.length := by
  simp only [Message.payload, Message.head, Message.body, List.length_append,
    List.length_singleton, wireUint32_length, wireString_length]
  omega

theorem response_plain {host : Host} {sender receiver : Peer}
    {response : RockResponse} {count : Nat}
    (length : 21 + response.resultStr.length + response.body.length = count)
    (below : count < sender.gzipMinLength.toNat ∧
      count < receiver.gzipMinLength.toNat) :
    Plain host sender receiver (.response response) := by
  rw [← length, ← response_payload_length host] at below
  exact below

section Response

variable {server : Peer} {response : RockResponse}

theorem response_received
    (plain : Plain host .client server (.response response))
    (safe : ¬(response.body = [] ∧
      (21 + response.resultStr.length) % 4096 = 0)) :
    ∃ rt sent received,
      serializeTo server env host gzip (.response response) ⟨true, [], 0⟩ =
        .done rt sent ∧
      parseFrom .client env host gzip sent =
        .done (some (.response response)) received ∧
      received.transit = [] := by
  obtain ⟨calls, sent⟩ :=
    @serializeTo_spec server env host gzip ⟨true, [], 0⟩ rfl
      (.response response) (client_small plain) plain.2
  obtain ⟨later, received⟩ :=
    @parseFrom_message .client env host gzip
      (Socket.gave ⟨true, [], 0⟩
        (frame host ((Message.response response).payload host)) calls)
      (.response response) [] rfl
      (List.append_nil _).symm (client_small plain) plain.1 (by
        by_cases empty : response.body = []
        · right
          rw [response_payload_length, empty, List.length_nil, Nat.add_zero]
          exact fun ended => safe ⟨empty, ended⟩
        · exact .inl empty)
  exact ⟨_, _, _, sent, received, rfl⟩

theorem response_faults
    (plain : Plain host .client server (.response response))
    (empty : response.body = [])
    (ended : (21 + response.resultStr.length) % 4096 = 0) :
    ∃ rt sent,
      serializeTo server env host gzip (.response response) ⟨true, [], 0⟩ =
        .done rt sent ∧
      parseFrom .client env host gzip sent = .fault := by
  obtain ⟨calls, sent⟩ :=
    @serializeTo_spec server env host gzip ⟨true, [], 0⟩ rfl
      (.response response) (client_small plain) plain.2
  refine ⟨_, _, sent, parseFrom_null rfl (List.append_nil _).symm
    (client_small plain) plain.1 empty ?_⟩
  rw [response_payload_length, empty, List.length_nil, Nat.add_zero]
  exact ended

end Response

/-- Every call moves all that it can. -/
def whole : Surroundings :=
  ⟨fun _ limit => limit, fun _ _ => 0, by omega, by omega⟩

/-- An echo server that was sent 4075 bytes answers with these and an empty
body. -/
theorem response_null :
    ∃ rt sent,
      Plain ⟨.little, .little⟩ .client .client
        (.response ⟨⟨1, 1, 0, List.replicate 4075 0⟩, ⟨[]⟩⟩) ∧
      serializeTo .client
          ⟨fun _ limit => limit, fun _ _ => 0, by omega, by omega⟩
          ⟨.little, .little⟩ (fun _ _ => .writeError)
          (.response ⟨⟨1, 1, 0, List.replicate 4075 0⟩, ⟨[]⟩⟩) ⟨true, [], 0⟩ =
        .done rt sent ∧
      parseFrom .client
          ⟨fun _ limit => limit, fun _ _ => 0, by omega, by omega⟩
          ⟨.little, .little⟩ (fun _ _ => .writeError) sent = .fault := by
  have general : ∀ text : Bytes, text.length = 4075 → ∃ rt sent,
      Plain ⟨.little, .little⟩ .client .client
        (.response ⟨⟨1, 1, 0, text⟩, ⟨[]⟩⟩) ∧
      serializeTo .client
          ⟨fun _ limit => limit, fun _ _ => 0, by omega, by omega⟩
          ⟨.little, .little⟩ (fun _ _ => .writeError)
          (.response ⟨⟨1, 1, 0, text⟩, ⟨[]⟩⟩) ⟨true, [], 0⟩ = .done rt sent ∧
      parseFrom .client
          ⟨fun _ limit => limit, fun _ _ => 0, by omega, by omega⟩
          ⟨.little, .little⟩ (fun _ _ => .writeError) sent = .fault := by
    intro text length
    have plain : Plain ⟨.little, .little⟩ .client .client
        (.response ⟨⟨1, 1, 0, text⟩, ⟨[]⟩⟩) :=
      @response_plain _ _ _ _ 4096 (by simp only [length, List.length_nil])
        (by decide)
    obtain ⟨rt, sent, first, second⟩ :=
      response_faults plain rfl (by simp only [length])
    exact ⟨rt, sent, plain, first, second⟩
  exact general _ List.length_replicate

/-- Response direction: the response arrives exactly when its body is not an
empty one at the end of the last node. -/
theorem response_arrives_iff (env : Surroundings) (host : Host) (gzip : Gzip)
    (server : Peer) (response : RockResponse)
    (plain : Plain host .client server (.response response)) :
    (∃ rt sent received,
      serializeTo server env host gzip (.response response) ⟨true, [], 0⟩ =
        .done rt sent ∧
      parseFrom .client env host gzip sent =
        .done (some (.response response)) received ∧
      received.transit = []) ↔
    ¬(response.body = [] ∧ (21 + response.resultStr.length) % 4096 = 0) := by
  refine ⟨?_, response_received plain⟩
  rintro ⟨rt, sent, received, first, second, -⟩ ⟨empty, ended⟩
  obtain ⟨_, _, again, fault⟩ := response_faults plain empty ended
  rw [first] at again
  obtain ⟨rfl, rfl⟩ := Outcome.done.inj again
  rw [second] at fault
  cases fault

/-- A short response with an empty body arrives. -/
theorem response_arrives_short :
    ∃ rt sent received,
      serializeTo .client
          ⟨fun _ limit => limit, fun _ _ => 0, by omega, by omega⟩
          ⟨.little, .little⟩ (fun _ _ => .writeError)
          (.response ⟨⟨1, 1, 0, [5]⟩, ⟨[]⟩⟩) ⟨true, [], 0⟩ = .done rt sent ∧
      parseFrom .client
          ⟨fun _ limit => limit, fun _ _ => 0, by omega, by omega⟩
          ⟨.little, .little⟩ (fun _ _ => .writeError) sent =
        .done (some (.response ⟨⟨1, 1, 0, [5]⟩, ⟨[]⟩⟩)) received ∧
      received.transit = [] :=
  (response_arrives_iff _ ⟨.little, .little⟩ _ .client
    ⟨⟨1, 1, 0, [5]⟩, ⟨[]⟩⟩ (by decide)).mpr (by decide)

end RockMessageDecoder

end Sylar
