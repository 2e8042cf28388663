import Sylar.Data.Word
import Sylar.IOManager.Model

namespace Sylar.Socket.Counts

open Data IOManager

/-! The counts that `Socket::recv` and `Socket::send` report, from the overlapped
call through `do_socket`. The descriptor has an `FdCtx`, and `addEvent` returns 0
whenever it returns. -/

inductive SockOpt
  | SO_RCVTIMEO
  | SO_SNDTIMEO

structure FdCtx where
  isClose : Bool
  isSocket : Bool
  recvTimeout : UInt64
  sendTimeout : UInt64

def FdCtx.getTimeout (ctx : FdCtx) : SockOpt → UInt64
  | .SO_RCVTIMEO => ctx.recvTimeout
  | .SO_SNDTIMEO => ctx.sendTimeout

def WSA_IO_PENDING : UInt32 := 997

/-- What the overlapped call returns: 0, with the number of bytes it also stores
for the caller, or `SOCKET_ERROR`, with the last error. -/
inductive Issued
  | zero (number : UInt32)
  | socketError (error : UInt32)

/-- What `do_socket` finds after `YieldToHold`. -/
structure Resumed (D P F C : Type) where
  /-- whether the callback of the timer has assigned `cancelled` -/
  expired : Bool
  io : IOManager.State D P F C

variable {D P F C : Type}

/-- `num` behind the loop over the buffers. -/
def total (wsabufs : List UInt32) : UInt32 :=
  wsabufs.foldl (fun num len => num + len) 0

/-- The buffers are the `len` of each `WSABUF`. Every result is a `DWORD`. -/
def do_socket (ctx : FdCtx) (timeout_so : SockOpt) (eventCtx : P)
    (wsabufs : List UInt32) (n : Issued) (resumed : Resumed D P F C) : UInt32 :=
  if ctx.isClose then 0
  else if !ctx.isSocket then 0
  else
    match n with
    | .zero _ => total wsabufs
    | .socketError error =>
        if error ≠ WSA_IO_PENDING then 0
        else if ctx.getTimeout timeout_so ≠ -1 ∧ resumed.expired = true then 0
        else (resumed.io.contexts eventCtx).dwDataLength

def s_recv (ctx : FdCtx) (eventCtx : P) (lpBuffers : List UInt32) (n : Issued)
    (resumed : Resumed D P F C) : UInt32 :=
  do_socket ctx .SO_RCVTIMEO eventCtx lpBuffers n resumed

def s_send (ctx : FdCtx) (eventCtx : P) (lpBuffers : List UInt32) (n : Issued)
    (resumed : Resumed D P F C) : UInt32 :=
  do_socket ctx .SO_RCVTIMEO eventCtx lpBuffers n resumed

/-- What `num` holds after `s_send`; it is not initialised, and a call that fails or
goes pending need not store anything. -/
def numberSent (ctx : FdCtx) (num : UInt32) : Issued → UInt32
  | .zero number => if ctx.isClose || !ctx.isSocket then num else number
  | .socketError _ => num

/-- The buffers that `dwBufferCount` leaves of a `size_t` of them. -/
def counted (buffers : List UInt32) : List UInt32 :=
  buffers.take (buffers.length % 2 ^ 32)

def recvBuffers (isConnected : Bool) (ctx : FdCtx) (eventCtx : P)
    (buffers : List UInt32) (n : Issued) (resumed : Resumed D P F C) : Int :=
  if isConnected then
    toInt32 (s_recv ctx eventCtx (counted buffers) n resumed).toNat
  else -1

def sendBuffers (isConnected : Bool) (ctx : FdCtx) (eventCtx : P)
    (buffers : List UInt32) (num : UInt32) (n : Issued) (resumed : Resumed D P F C) :
    Int :=
  if isConnected then
    if s_send ctx eventCtx (counted buffers) n resumed = 0 then
      toInt32 (numberSent ctx num n).toNat
    else toInt32 (s_send ctx eventCtx (counted buffers) n resumed).toNat
  else -1

/-- `recv(void* buffer, size_t length)`. -/
def recv (isConnected : Bool) (ctx : FdCtx) (eventCtx : P) (length : Nat)
    (n : Issued) (resumed : Resumed D P F C) : Int :=
  recvBuffers isConnected ctx eventCtx [.ofNat length] n resumed

/-- `send(const void* buffer, size_t length)`. -/
def send (isConnected : Bool) (ctx : FdCtx) (eventCtx : P) (length : Nat)
    (num : UInt32) (n : Issued) (resumed : Resumed D P F C) : Int :=
  sendBuffers isConnected ctx eventCtx [.ofNat length] num n resumed

/-! What an operation really does, and what is reported of it. -/

inductive Outcome
  | completed (number : UInt32)
  | later (number : UInt32)
  | failed
  | cancelled

def Outcome.transferred : Outcome → Option UInt32
  | .completed number => some number
  | .later number => some number
  | .failed => none
  | .cancelled => none

variable [DecidableEq D] [DecidableEq P]

/-- How each outcome shows. A pending operation that completes has its number stored
by the worker that dispatches its packet. -/
inductive Occurs (ctx : FdCtx) (eventCtx : P) (wsabufs : List UInt32) :
    Outcome → Issued → Resumed D P F C → Prop
  | refused {n : Issued} {resumed : Resumed D P F C}
      (closed : ctx.isClose = true ∨ ctx.isSocket = false) :
      Occurs ctx eventCtx wsabufs .failed n resumed
  | completed {number : UInt32} {resumed : Resumed D P F C}
      (opened : ctx.isClose = false ∧ ctx.isSocket = true)
      (bound : number.toNat ≤ (wsabufs.map UInt32.toNat).sum) :
      Occurs ctx eventCtx wsabufs (.completed number) (.zero number) resumed
  | failed {error : UInt32} {resumed : Resumed D P F C}
      (opened : ctx.isClose = false ∧ ctx.isSocket = true)
      (immediate : error ≠ WSA_IO_PENDING) :
      Occurs ctx eventCtx wsabufs .failed (.socketError error) resumed
  | later {number : UInt32} {resumed : Resumed D P F C} {fd : D}
      {before after : IOManager.State D P F C} {tasks : List (Task F C)}
      {lowered : Option UInt64}
      (opened : ctx.isClose = false ∧ ctx.isSocket = true)
      (bound : number.toNat ≤ (wsabufs.map UInt32.toNat).sum)
      (dispatched : before.dispatch fd eventCtx number = some (after, tasks, lowered))
      (kept : (resumed.io.contexts eventCtx).dwDataLength =
        (after.contexts eventCtx).dwDataLength)
      (early : resumed.expired = false) :
      Occurs ctx eventCtx wsabufs (.later number) (.socketError WSA_IO_PENDING)
        resumed
  | cancelled {resumed : Resumed D P F C}
      (opened : ctx.isClose = false ∧ ctx.isSocket = true)
      (timed : ctx.getTimeout .SO_RCVTIMEO ≠ -1)
      (expired : resumed.expired = true) :
      Occurs ctx eventCtx wsabufs .cancelled (.socketError WSA_IO_PENDING) resumed

/-- A positive value is the number of bytes that were transferred. -/
def Reported (outcome : Outcome) (value : Int) : Prop :=
  0 < value → ∃ number, outcome.transferred = some number ∧ value = number.toNat

def Positive (value : UInt32) : Prop := value ≠ 0 ∧ value.toNat < 2 ^ 31

/-- When the sum of the buffers, which is reported for an operation that completes
at once, is right. -/
def RecvCounts (wsabufs : List UInt32) : Outcome → Prop
  | .completed number => Positive (total wsabufs) → total wsabufs = number
  | _ => True

/-- The same, and for an answer of 0 what `num` happens to hold does not count. -/
def SendCounts (wsabufs : List UInt32) (num : UInt32) : Outcome → Prop
  | .completed number => Positive (total wsabufs) → total wsabufs = number
  | .later number => number = 0 → ¬Positive num
  | .failed => ¬Positive num
  | .cancelled => ¬Positive num

theorem toInt32_pos_iff (value : UInt32) :
    0 < toInt32 value.toNat ↔ Positive value := by
  have bound := value.toNat_lt
  rw [Positive, Ne, ← UInt32.toNat_inj, UInt32.toNat_zero]
  by_cases small : value.toNat < 2 ^ 31
  · rw [toInt32_of_small small]
    omega
  · have negative := toInt32_of_large (Nat.not_lt.mp small) bound
    omega

theorem reported_iff (outcome : Outcome) (value : UInt32) :
    Reported outcome (toInt32 value.toNat) ↔
      (Positive value → outcome.transferred = some value) := by
  rw [Reported, toInt32_pos_iff]
  refine forall_congr' fun positive => ?_
  rw [toInt32_of_small positive.2]
  constructor
  · rintro ⟨number, transferred, same⟩
    rw [transferred, UInt32.toNat_inj.mp (Int.ofNat.inj same)]
  · exact fun transferred => ⟨value, transferred, rfl⟩

theorem triggerEvent_length {s t : IOManager.State D P F C} {fd : D}
    {event : Event} {tasks : List (Task F C)}
    (fired : s.triggerEvent fd event = some (t, tasks)) (p : P) :
    (t.contexts p).dwDataLength = (s.contexts p).dwDataLength := by
  unfold State.triggerEvent at fired
  split at fired
  · split at fired
    · cases fired
    · rename_i held _
      split at fired
      · cases fired
        rcases eq_or_ne p held with rfl | different
        · simp only [State.setFd, State.setContext, Function.update_self,
            EventContext.swapped]
          split <;> rfl
        · simp only [State.setFd, State.setContext, Function.update_of_ne different]
      · cases fired
  · cases fired
    rfl

theorem dispatch_length {s t : IOManager.State D P F C} {fd : D} {p : P}
    {number : UInt32} {tasks : List (Task F C)} {lowered : Option UInt64}
    (dispatched : s.dispatch fd p number = some (t, tasks, lowered)) :
    (t.contexts p).dwDataLength = number := by
  have stored : ((s.setContext p { s.contexts p with
      dwDataLength := number }).contexts p).dwDataLength = number := by
    simp [State.setContext]
  simp only [State.dispatch] at dispatched
  split at dispatched
  · obtain ⟨⟨next, woken⟩, fired, same⟩ := Option.map_eq_some_iff.mp dispatched
    cases same
    exact (triggerEvent_length fired p).trans stored
  · split at dispatched
    · obtain ⟨⟨next, woken⟩, fired, same⟩ := Option.map_eq_some_iff.mp dispatched
      cases same
      exact (triggerEvent_length fired p).trans stored
    · cases dispatched
      exact stored

/-- The count `do_socket` makes of an outcome. -/
def Outcome.count (wsabufs : List UInt32) : Outcome → UInt32
  | .completed _ => total wsabufs
  | .later number => number
  | .failed => 0
  | .cancelled => 0

def Outcome.stored (num : UInt32) : Outcome → UInt32
  | .completed number => number
  | .later _ => num
  | .failed => num
  | .cancelled => num

def Outcome.sent (wsabufs : List UInt32) (num : UInt32) (outcome : Outcome) :
    UInt32 :=
  if outcome.count wsabufs = 0 then outcome.stored num else outcome.count wsabufs

variable {ctx : FdCtx} {eventCtx : P} {wsabufs : List UInt32} {outcome : Outcome}
  {n : Issued} {resumed : Resumed D P F C}

theorem do_socket_eq (occurs : Occurs ctx eventCtx wsabufs outcome n resumed) :
    do_socket ctx .SO_RCVTIMEO eventCtx wsabufs n resumed = outcome.count wsabufs := by
  unfold do_socket
  cases occurs with
  | refused closed =>
      rcases closed with closed | other
      · simp [closed, Outcome.count]
      · simp [other, Outcome.count]
  | completed opened bound => simp [opened, Outcome.count]
  | failed opened immediate => simp [opened, immediate, Outcome.count]
  | later opened bound dispatched kept early =>
      simp [opened, early, kept, dispatch_length dispatched, Outcome.count]
  | cancelled opened timed expired => simp [opened, timed, expired, Outcome.count]

theorem numberSent_eq (occurs : Occurs ctx eventCtx wsabufs outcome n resumed)
    (num : UInt32) :
    numberSent ctx num n = outcome.stored num := by
  cases occurs with
  | refused closed =>
      cases n with
      | zero number =>
          have silent : (ctx.isClose || !ctx.isSocket) = true := by
            simpa using closed
          simp [numberSent, silent, Outcome.stored]
      | socketError error => rfl
  | completed opened bound => simp [numberSent, opened, Outcome.stored]
  | failed opened immediate => rfl
  | later opened bound dispatched kept early => rfl
  | cancelled opened timed expired => rfl

theorem not_positive_zero : ¬Positive 0 := fun positive => positive.1 rfl

theorem recvBuffers_eq {buffers : List UInt32}
    (occurs : Occurs ctx eventCtx (counted buffers) outcome n resumed) :
    recvBuffers true ctx eventCtx buffers n resumed =
      toInt32 (outcome.count (counted buffers)).toNat := by
  rw [recvBuffers, if_pos rfl, s_recv, do_socket_eq occurs]

theorem sendBuffers_eq {buffers : List UInt32}
    (occurs : Occurs ctx eventCtx (counted buffers) outcome n resumed)
    (num : UInt32) :
    sendBuffers true ctx eventCtx buffers num n resumed =
      toInt32 (outcome.sent (counted buffers) num).toNat := by
  rw [sendBuffers, if_pos rfl, s_send, do_socket_eq occurs, numberSent_eq occurs,
    Outcome.sent]
  split <;> rfl

theorem recvCounts_iff (wsabufs : List UInt32) (outcome : Outcome) :
    Reported outcome (toInt32 (outcome.count wsabufs).toNat) ↔
      RecvCounts wsabufs outcome := by
  rw [reported_iff]
  cases outcome with
  | completed number =>
      simp [Outcome.count, Outcome.transferred, RecvCounts, eq_comm]
  | later number => simp [Outcome.count, Outcome.transferred, RecvCounts]
  | failed => simp [Outcome.count, RecvCounts, not_positive_zero]
  | cancelled => simp [Outcome.count, RecvCounts, not_positive_zero]

theorem sendCounts_iff (wsabufs : List UInt32) (num : UInt32) (outcome : Outcome) :
    Reported outcome (toInt32 (outcome.sent wsabufs num).toNat) ↔
      SendCounts wsabufs num outcome := by
  rw [reported_iff, Outcome.sent]
  cases outcome with
  | completed number =>
      change (Positive (if total wsabufs = 0 then number else total wsabufs) →
        some number = some (if total wsabufs = 0 then number else total wsabufs)) ↔ _
      rw [SendCounts]
      split
      · rename_i empty
        simp [empty, not_positive_zero]
      · simp [eq_comm]
  | later number =>
      change (Positive (if number = 0 then num else number) →
        some number = some (if number = 0 then num else number)) ↔ _
      rw [SendCounts, Option.some_inj]
      split
      · rename_i nothing
        rw [nothing]
        exact ⟨fun reported _ positive => positive.1 (reported positive).symm,
          fun silent positive => absurd positive (silent rfl)⟩
      · rename_i something
        simp [something]
  | failed => simp [Outcome.count, Outcome.stored, Outcome.transferred, SendCounts]
  | cancelled => simp [Outcome.count, Outcome.stored, Outcome.transferred, SendCounts]

/-- Positive counts are the transferred ones where an operation that completes at
once fills its buffers and, for a send, where what `num` happens to hold is not
positive for one that moves nothing. -/
theorem counts_iff (isConnected : Bool) (ctx : FdCtx) (eventCtx : P)
    (buffers : List UInt32) (num : UInt32) {outcome : Outcome} {n : Issued}
    {resumed : Resumed D P F C}
    (occurs : Occurs ctx eventCtx (counted buffers) outcome n resumed) :
    (Reported outcome (recvBuffers isConnected ctx eventCtx buffers n resumed) ↔
      (isConnected = true → RecvCounts (counted buffers) outcome)) ∧
    (Reported outcome (sendBuffers isConnected ctx eventCtx buffers num n resumed) ↔
      (isConnected = true → SendCounts (counted buffers) num outcome)) := by
  cases isConnected with
  | false =>
      have negative : Reported outcome (-1) := by
        intro positive
        omega
      simp [recvBuffers, sendBuffers, negative]
  | true =>
      rw [recvBuffers_eq occurs, sendBuffers_eq occurs, recvCounts_iff,
        sendCounts_iff]
      simp

/-! A connected socket without timeouts. -/

def plain : FdCtx := ⟨false, true, -1, -1⟩

def idle : Resumed Unit Nat Nat Unit :=
  ⟨false, fun _ => .new, fun _ => .new, 0⟩

/-- A receive that goes pending on a buffer of 100 bytes and gets 3. -/
theorem counts_later :
    ∃ resumed : Resumed Unit Nat Nat Unit,
      recv true plain 1 100 (.socketError WSA_IO_PENDING) resumed = 3 ∧
      Reported (.later 3) (recv true plain 1 100 (.socketError WSA_IO_PENDING)
        resumed) := by
  obtain ⟨before, registered⟩ :
      ∃ before, idle.io.addEvent () .READ 1 (.fiber 5) = some before := ⟨_, rfl⟩
  obtain ⟨after, dispatched⟩ : ∃ after,
      before.dispatch () 1 3 = some (after, [.fiber 5], some 0) := by
    cases registered
    exact ⟨_, rfl⟩
  have occurs : Occurs plain 1 (counted [100]) (.later 3)
      (.socketError WSA_IO_PENDING) ⟨false, after⟩ :=
    .later (by decide) (by decide) dispatched rfl rfl
  refine ⟨⟨false, after⟩, ?_, ?_⟩
  · exact (recvBuffers_eq occurs).trans (by decide)
  · exact (counts_iff true plain 1 [100] 0 occurs).1.mpr fun _ => trivial

/-- A receive into 100 bytes that completes at once with 3 reports 100, and a send
that fails at once what its variable held. -/
theorem counts_wrong :
    Occurs plain 1 [100] (.completed 3) (.zero 3) idle ∧
    recv true plain 1 100 (.zero 3) idle = 100 ∧
    ¬Reported (.completed 3) (recv true plain 1 100 (.zero 3) idle) ∧
    Occurs plain 1 [100] .failed (.socketError 10054) idle ∧
    send true plain 1 100 7 (.socketError 10054) idle = 7 ∧
    ¬Reported .failed (send true plain 1 100 7 (.socketError 10054) idle) := by
  have received : recv true plain 1 100 (.zero 3) idle = 100 := by decide
  have sent : send true plain 1 100 7 (.socketError 10054) idle = 7 := by decide
  refine ⟨.completed (by decide) (by decide), received, ?_, .failed (by decide)
    (by decide), sent, ?_⟩
  · rw [received]
    intro reported
    obtain ⟨number, transferred, same⟩ := reported (by decide)
    cases transferred
    cases same
  · rw [sent]
    intro reported
    obtain ⟨number, transferred, -⟩ := reported (by decide)
    cases transferred

end Sylar.Socket.Counts
