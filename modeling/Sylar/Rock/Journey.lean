import Sylar.Async.Matching
import Sylar.Rock.Exchange

namespace Sylar

open Logic Data AsyncSocketStream RockMessageDecoder

namespace Exchange

/-! Where every request is, from `enqueue` to the response: the bytes of the two
directions are read as the messages that they spell. -/

namespace Outbox

variable {box next : Outbox M}

@[simp] theorem items_new : (new : Outbox M).items = [] := rfl

@[simp] theorem items_enqueue (ctx : M) :
    (box.enqueue ctx).items = box.items ++ [ctx] := by
  unfold enqueue items
  cases box.writer with
  | send ctxs => exact (List.append_assoc ctxs box.queue [ctx]).symm
  | _ => rfl

theorem items_notify (notified : box.notify = some next) :
    next.items = box.items := by
  unfold notify at notified
  split at notified
  · cases notified
    rfl
  · cases notified

theorem items_advance {sent : Option M}
    (advanced : box.advance = some (next, sent)) :
    box.items = sent.toList ++ next.items := by
  unfold advance at advanced
  unfold items
  cases place : box.writer with
  | wait =>
      simp only [place] at advanced
      split at advanced
      · cases advanced
        rfl
      · cases advanced
  | swap =>
      simp only [place] at advanced
      cases advanced
      exact (List.append_nil box.queue).symm
  | send ctxs =>
      cases ctxs with
      | nil =>
          simp only [place] at advanced
          cases advanced
          rfl
      | cons ctx ctxs =>
          simp only [place] at advanced
          cases advanced
          rfl

theorem items_abandon : box.abandon.items.Sublist box.items := by
  unfold abandon items
  cases box.writer with
  | send ctxs => exact List.sublist_append_right ctxs box.queue
  | _ => exact List.Sublist.refl _

theorem items_close : box.close.items.Sublist box.items := by
  unfold close items
  cases box.writer with
  | send ctxs => exact List.Sublist.append_left (List.nil_sublist _) ctxs
  | _ => exact List.nil_sublist _

/-- A message in the queue is not forgotten: a notification of it is on its way,
or it was given, or `doWrite` is about to swap. -/
def Awake (box : Outbox M) : Prop :=
  box.queue ≠ [] → 0 < box.found ∨ 0 < box.permits ∨ box.writer = .swap

theorem Awake.enqueue (awake : box.Awake) (ctx : M) : (box.enqueue ctx).Awake := by
  intro _
  unfold Outbox.enqueue
  cases empty : box.queue with
  | nil => exact .inl (Nat.succ_pos _)
  | cons first rest => exact awake (by simp [empty])

theorem awake_notify (notified : box.notify = some next) : next.Awake := by
  unfold Outbox.notify at notified
  split at notified
  · cases notified
    exact fun _ => .inr (.inl (Nat.succ_pos _))
  · cases notified

theorem Awake.advance (awake : box.Awake) {sent : Option M}
    (advanced : box.advance = some (next, sent)) : next.Awake := by
  unfold Outbox.advance at advanced
  cases place : box.writer with
  | wait =>
      simp only [place] at advanced
      split at advanced
      · cases advanced
        exact fun _ => .inr (.inr rfl)
      · cases advanced
  | swap =>
      simp only [place] at advanced
      cases advanced
      exact fun more => absurd rfl more
  | send ctxs =>
      cases ctxs with
      | nil =>
          simp only [place] at advanced
          cases advanced
          intro more
          exact (awake more).imp_right fun rest =>
            rest.imp_right fun swap => by rw [place] at swap; cases swap
      | cons ctx ctxs =>
          simp only [place] at advanced
          cases advanced
          intro more
          exact (awake more).imp_right fun rest =>
            rest.imp_right fun swap => by rw [place] at swap; cases swap

theorem Awake.abandon (awake : box.Awake) (sending : box.writer ≠ .swap) :
    box.abandon.Awake := by
  intro more
  rcases awake more with found | permits | swap
  · exact .inl found
  · exact .inr (.inl permits)
  · exact absurd swap sending

theorem Awake.close : box.close.Awake := fun more => absurd rfl more

/-- An outbox that can do nothing has nothing to send. -/
theorem Awake.items_nil (awake : box.Awake) (unnotified : box.notify = none)
    (stuck : box.advance = none) : box.items = [] := by
  unfold Outbox.notify at unnotified
  unfold Outbox.advance at stuck
  unfold items
  cases place : box.writer with
  | wait =>
      simp only [place] at stuck
      by_contra more
      rcases awake more with found | permits | swap
      · rw [if_pos found] at unnotified
        cases unnotified
      · rw [if_pos permits] at stuck
        cases stuck
      · rw [place] at swap
        cases swap
  | swap =>
      simp only [place] at stuck
      cases stuck
  | send ctxs =>
      cases ctxs <;> simp [place] at stuck

end Outbox

/-! A direction carries messages: the bytes in transit are their frames, cut off
somewhere once the network is gone. -/

structure Carries (host : Host) (messages : List Message) (transit : Bytes)
    (lost : Bool) : Prop where
  cut : ∃ kept, transit = (frames host messages).take kept
  whole : lost = false → transit = frames host messages

/-- What both ends can send and receive. -/
structure Deliverable (host : Host) (sender receiver : Peer)
    (message : Message) : Prop where
  small : (frame host (message.payload host)).length < 2 ^ 31
  plain : Plain host sender receiver message
  readable : Readable host message

theorem payload_small {host : Host} {payload : Bytes}
    (small : (frame host payload).length < 2 ^ 31) : payload.length < 2 ^ 31 := by
  rw [frame_length] at small
  omega

namespace Carries

variable {host : Host} {messages : List Message} {transit : Bytes} {lost : Bool}

theorem empty (lost : Bool) : Carries host [] [] lost :=
  ⟨⟨0, rfl⟩, fun _ => rfl⟩

theorem send (carries : Carries host messages transit false) (message : Message) :
    Carries host (messages ++ [message])
      (transit ++ frame host (message.payload host)) false := by
  have all : transit ++ frame host (message.payload host) =
      frames host (messages ++ [message]) := by
    rw [carries.whole rfl]
    simp [frames]
  exact ⟨⟨_, by rw [all, List.take_length]⟩, fun _ => all⟩

theorem lose (carries : Carries host messages transit lost) (kept : Nat) :
    Carries host messages (transit.take kept) true := by
  obtain ⟨before, rfl⟩ := carries.cut
  exact ⟨⟨min kept before, List.take_take⟩, by rintro ⟨⟩⟩

theorem nonempty {message : Message}
    (carries : Carries host (message :: messages) transit false) :
    transit ≠ [] := by
  rw [carries.whole rfl]
  intro nothing
  have length := congrArg List.length nothing
  simp only [frames, List.flatMap_cons, List.length_append, frame_length,
    RockMsgHeader.sizeof, List.length_nil] at length
  omega

/-- What `parseFrom` takes out of a direction: the first message, or nothing if
there is none or its frame is cut off. -/
theorem receive {sender peer : Peer} {env : Surroundings} {gzip : Gzip}
    {socket : Socket} (connected : socket.connected = true)
    (carries : Carries host messages socket.transit lost)
    (deliverable : ∀ message ∈ messages,
      Deliverable host sender peer message) :
    ∃ found after, parseFrom peer env host gzip socket = .done found after ∧
      ((∃ message rest, messages = message :: rest ∧ found = some message ∧
          Carries host rest after.transit lost) ∨
        (found = none ∧ Carries host messages after.transit lost ∧
          (messages = [] ∨ lost = true))) := by
  obtain ⟨kept, transit⟩ := carries.cut
  cases messages with
  | nil =>
      obtain ⟨calls, parsed⟩ :=
        @parseFrom_drained peer env host gzip socket connected (by
          rw [transit]
          exact List.take_nil)
      exact ⟨none, _, parsed, .inr ⟨rfl, .empty lost, .inl rfl⟩⟩
  | cons message messages =>
      obtain ⟨small, plain, readable⟩ := deliverable message (by simp)
      have size : frames host (message :: messages) =
          frame host (message.payload host) ++ frames host messages := rfl
      rw [size] at transit
      rcases Nat.lt_or_ge kept (frame host (message.payload host)).length
        with inside | fits
      · rw [List.take_append_of_le_length inside.le] at transit
        obtain ⟨calls, parsed⟩ :=
          @parseFrom_short peer env host gzip socket connected _
            (message.payload_pos host) (payload_small small) plain.2 kept inside
            transit
        have gone : lost = true := by
          cases lost with
          | true => rfl
          | false =>
              have length := congrArg List.length (carries.whole rfl)
              rw [transit, size, List.length_append, List.length_take] at length
              omega
        refine ⟨none, _, parsed, .inr ⟨rfl, ⟨⟨0, rfl⟩, ?_⟩, .inr gone⟩⟩
        intro present
        rw [gone] at present
        cases present
      · rw [List.take_append, List.take_of_length_le fits] at transit
        obtain ⟨calls, parsed⟩ :=
          @parseFrom_message peer env host gzip socket message _ connected
            transit (payload_small small) plain.2 readable
        refine ⟨some message, _, parsed, .inl ⟨message, messages, rfl, rfl,
          ⟨_, rfl⟩, ?_⟩⟩
        intro present
        have all := carries.whole present
        rw [transit, size] at all
        exact List.append_cancel_left all

end Carries

section Write

variable {peer receiver : Peer} {env : Surroundings} {host : Host} {gzip : Gzip}
  {M : Type} {message : M → Message} {lost ok : Bool} {side next : Side M}
  {messages : List Message}

/-- A step of `doWrite` prepares a send, or sends the next message, or loses
messages, on a network that is gone or a socket that is closed. -/
theorem write_cases
    (written : side.write peer env host gzip message lost ok = some next)
    (carries : Carries host messages side.pipe.transit lost)
    (deliverable : ∀ ctx ∈ side.outbox.items,
      Deliverable host peer receiver (message ctx))
    (awake : side.outbox.Awake) :
    next.crashed = side.crashed ∧ next.outbox.Awake ∧
      ((next.outbox.items = side.outbox.items ∧ next.pipe = side.pipe ∧
          next.connected = side.connected) ∨
        (∃ ctx, side.outbox.items = ctx :: next.outbox.items ∧ lost = false ∧
          next.connected = side.connected ∧
          Carries host (messages ++ [message ctx]) next.pipe.transit lost) ∨
        (next.outbox.items.Sublist side.outbox.items ∧ next.pipe = side.pipe ∧
          (lost = true ∨ side.connected = false ∧ next.connected = false))) := by
  unfold Side.write at written
  cases advanced : side.outbox.advance with
  | none =>
      rw [advanced] at written
      cases written
  | some pair =>
      obtain ⟨outbox, sent⟩ := pair
      have items := Outbox.items_advance advanced
      have still := awake.advance advanced
      rw [advanced] at written
      cases sent with
      | none =>
          cases written
          exact ⟨rfl, still, .inl ⟨items.symm, rfl, rfl⟩⟩
      | some ctx =>
          have sending : outbox.writer ≠ .swap := by
            unfold Outbox.advance at advanced
            split at advanced <;> (try split at advanced) <;> cases advanced
            simp
          have fewer : outbox.items.Sublist side.outbox.items := by
            rw [items]
            exact List.sublist_cons_self ctx outbox.items
          simp only at written
          split at written
          · rename_i failed
            cases written
            refine ⟨rfl, still.abandon sending, .inr (.inr
              ⟨outbox.items_abandon.trans fewer, rfl, ?_⟩)⟩
            cases lost with
            | true => exact .inl rfl
            | false => exact .inr ⟨by simpa using failed, rfl⟩
          · split at written
            · rename_i gone
              cases written
              exact ⟨rfl, still, .inr (.inr ⟨fewer, rfl, .inl gone⟩)⟩
            · rename_i present
              obtain ⟨small, plain, -⟩ := deliverable ctx (by simp [items])
              obtain ⟨calls, serialized⟩ :=
                @serializeTo_spec peer env host gzip side.pipe.socket rfl
                  (message ctx) (payload_small small) plain.1
              rw [serialized] at written
              simp only at written
              rw [toInt32_of_small small, if_pos (by
                rw [frame_length, RockMsgHeader.sizeof]
                omega)] at written
              cases written
              have here : lost = false := by simpa using present
              subst here
              exact ⟨rfl, still, .inr (.inl ⟨ctx, items, rfl, rfl,
                carries.send (message ctx)⟩)⟩

end Write

/-! The journey. A request that was enqueued is in one of the stages before the
handler, or was handled once; a handled request has its response in one of the
stages after it, at most. -/

/-- What `RockStream::request` has enqueued. -/
def sent : AsyncSocketStream.Request → Bool
  | .addCtx => false
  | .addTimer => false
  | .setTimer => false
  | .enqueue => false
  | _ => true

/-- The requests in each stage. `items`, in the queue of the client, is beside
it; `delivered` are those whose response the client has read. -/
structure Plan (R : Type) where
  wire : List R
  tasks : List R
  handled : List R
  replies : List R
  back : List R
  delivered : List R

def Plan.empty : Plan R := ⟨[], [], [], [], [], []⟩

variable {R A : Type} [DecidableEq R] [DecidableEq A]

structure Places (sent : R → Bool) (ctxs : List R) (alive : Bool)
    (items : List R) (plan : Plan R) : Prop where
  once : ∀ r, items.count r + plan.wire.count r + plan.tasks.count r +
    plan.handled.count r ≤ if sent r then 1 else 0
  replied : ∀ r, plan.replies.count r + plan.back.count r +
    plan.delivered.count r ≤ plan.handled.count r
  kept : alive = true → ∀ r, sent r = true →
    1 ≤ items.count r + plan.wire.count r + plan.tasks.count r +
      plan.handled.count r
  answered : alive = true → ∀ r, plan.handled.count r ≤
    plan.replies.count r + plan.back.count r + plan.delivered.count r
  gone : ∀ r ∈ plan.delivered, r ∉ ctxs

namespace Places

variable {sent : R → Bool} {ctxs items : List R} {alive : Bool} {plan : Plan R}
  {r : R}

theorem sent_of_mem (places : Places sent ctxs alive items plan)
    (member : r ∈ plan.handled) : sent r = true := by
  have once := places.once r
  have present := List.count_pos_iff.mpr member
  cases here : sent r with
  | true => rfl
  | false =>
      rw [here] at once
      simp only [Bool.false_eq_true, if_false] at once
      omega

theorem handled_of_delivered (places : Places sent ctxs alive items plan)
    (member : r ∈ plan.delivered) : r ∈ plan.handled := by
  have replied := places.replied r
  have present := List.count_pos_iff.mpr member
  exact List.count_pos_iff.mp (by omega)

/-- After a loss there may be fewer of the messages. -/
theorem lose (places : Places sent ctxs alive items plan) {fewer replies : List R}
    (client : fewer.Sublist items) (server : replies.Sublist plan.replies) :
    Places sent ctxs false fewer { plan with replies := replies } where
  once r := by
    have := places.once r
    have := client.count_le r
    simp only
    omega
  replied r := by
    have := places.replied r
    have := server.count_le r
    simp only
    omega
  kept := by rintro ⟨⟩
  answered := by rintro ⟨⟩
  gone := places.gone

theorem shrink (places : Places sent ctxs alive items plan) {fewer : List R}
    (subset : ∀ r ∈ fewer, r ∈ ctxs) : Places sent fewer alive items plan where
  once := places.once
  replied := places.replied
  kept := places.kept
  answered := places.answered
  gone r member present := places.gone r member (subset r present)

theorem add (places : Places sent ctxs alive items plan) (unsent : sent r = false)
    {more : List R} (only : ∀ other ∈ more, other = r ∨ other ∈ ctxs) :
    Places sent more alive items plan where
  once := places.once
  replied := places.replied
  kept := places.kept
  answered := places.answered
  gone other member present := by
    rcases only other present with rfl | before
    · have here := places.sent_of_mem (places.handled_of_delivered member)
      rw [unsent] at here
      cases here
    · exact places.gone other member before

theorem enqueue (places : Places sent ctxs alive items plan)
    (unsent : sent r = false) :
    Places (Function.update sent r true) ctxs alive (items ++ [r]) plan where
  once other := by
    have := places.once other
    rw [List.count_append, List.count_singleton]
    rcases eq_or_ne other r with rfl | different
    · rw [unsent] at this
      simp only [Bool.false_eq_true, if_false] at this
      simp only [beq_self_eq_true, if_true, Function.update_self]
      omega
    · rw [Function.update_of_ne different]
      simp only [beq_iff_eq, different.symm, if_false]
      omega
  replied := places.replied
  kept here other present := by
    rw [List.count_append, List.count_singleton]
    rcases eq_or_ne other r with rfl | different
    · simp only [beq_self_eq_true, if_true]
      omega
    · rw [Function.update_of_ne different] at present
      have := places.kept here other present
      omega
  answered := places.answered
  gone := places.gone

/-- The next request goes out. -/
theorem send (places : Places sent ctxs alive (r :: items) plan) :
    Places sent ctxs alive items { plan with wire := plan.wire ++ [r] } where
  once other := by
    have := places.once other
    simp only [List.count_cons, List.count_append, List.count_nil] at this ⊢
    omega
  replied := places.replied
  kept here other present := by
    have := places.kept here other present
    simp only [List.count_cons, List.count_append, List.count_nil] at this ⊢
    omega
  answered := places.answered
  gone := places.gone

/-- The server reads a request and schedules its handler. -/
theorem receive (places : Places sent ctxs alive items plan) {rest : List R}
    (first : plan.wire = r :: rest) :
    Places sent ctxs alive items
      { plan with wire := rest, tasks := plan.tasks ++ [r] } where
  once other := by
    have := places.once other
    rw [first] at this
    simp only [List.count_cons, List.count_append, List.count_nil] at this ⊢
    omega
  replied := places.replied
  kept here other present := by
    have := places.kept here other present
    rw [first] at this
    simp only [List.count_cons, List.count_append, List.count_nil] at this ⊢
    omega
  answered := places.answered
  gone := places.gone

/-- The handler runs; its response is enqueued unless the session is closed. -/
theorem handle (places : Places sent ctxs alive items plan) {rest : List R}
    (tasks : plan.tasks.Perm (r :: rest)) (connected : Bool)
    (still : alive = true → connected = true) :
    Places sent ctxs alive items
      { plan with
        tasks := rest
        handled := plan.handled ++ [r]
        replies := plan.replies ++ if connected then [r] else [] } where
  once other := by
    have := places.once other
    rw [tasks.count_eq] at this
    simp only [List.count_cons, List.count_append, List.count_nil] at this ⊢
    omega
  replied other := by
    have := places.replied other
    cases connected <;>
      simp only [List.count_append, List.count_cons, List.count_nil, if_true,
        Bool.false_eq_true, if_false] <;> omega
  kept here other present := by
    have := places.kept here other present
    rw [tasks.count_eq] at this
    simp only [List.count_cons, List.count_append, List.count_nil] at this ⊢
    omega
  answered here other := by
    have := places.answered here other
    rw [still here]
    simp only [List.count_append, List.count_cons, List.count_nil, if_true]
    omega
  gone := places.gone

/-- The next response goes out. -/
theorem reply (places : Places sent ctxs alive items plan) {rest : List R}
    (first : plan.replies = r :: rest) :
    Places sent ctxs alive items
      { plan with replies := rest, back := plan.back ++ [r] } where
  once := places.once
  replied other := by
    have := places.replied other
    rw [first] at this
    simp only [List.count_cons, List.count_append, List.count_nil] at this ⊢
    omega
  kept := places.kept
  answered here other := by
    have := places.answered here other
    rw [first] at this
    simp only [List.count_cons, List.count_append, List.count_nil] at this ⊢
    omega
  gone := places.gone

/-- The client reads a response, and no context is left under its number. -/
theorem deliver (places : Places sent ctxs alive items plan) {rest fewer : List R}
    (first : plan.back = r :: rest) (subset : ∀ r ∈ fewer, r ∈ ctxs)
    (taken : r ∉ fewer) :
    Places sent fewer alive items
      { plan with back := rest, delivered := plan.delivered ++ [r] } where
  once := places.once
  replied other := by
    have := places.replied other
    rw [first] at this
    simp only [List.count_cons, List.count_append, List.count_nil] at this ⊢
    omega
  kept := places.kept
  answered here other := by
    have := places.answered here other
    rw [first] at this
    simp only [List.count_cons, List.count_append, List.count_nil] at this ⊢
    omega
  gone other member present := by
    rcases List.mem_append.mp member with before | last
    · exact places.gone other before (subset other present)
    · rw [List.mem_singleton.mp last] at present
      exact taken present

end Places

end Exchange

end Sylar
