import Mathlib.Data.Finset.Insert
import Sylar.Logic.Reach
import Sylar.Scheduler.Model

namespace Sylar.AsyncSocketStream.Lifecycle

open Logic Scheduler

/-! One `AsyncSocketStream`: its calls of `start`, the `doRead` and `doWrite` that
each of them schedules, and the calls of `enqueue`. A step is one operation on
`m_waitSem`, on `m_sem`, on `m_queue` under its lock or on the socket, or one call
into the code of the user. -/

/-- Where a call of `innerClose` is: before the disconnect callback and
`onClose`, before `SocketStream::close`, before `m_sem.notify` and before
`m_queue.clear`. -/
inductive Closing
  | callback
  | close
  | notify
  | clear
  deriving DecidableEq, Repr

/-- Where a call of `start` is. `wait` and `waitSecond` are the two waits of
`waitFiber`, each with its place among the waiters; `giveFirst` and `giveSecond`
are the two notifications of a failed call. `thrown` is a call that a disconnect
callback has ended. -/
inductive StartPc
  | ready
  | wait
  | blocked
  | waitSecond
  | blockedSecond
  | owns
  | reconnect
  | connectCb
  | closing (stage : Closing)
  | giveFirst
  | giveSecond
  | startRead
  | startWrite
  | done
  | thrown
  deriving DecidableEq, Repr

/-- Where the `doRead` of a call is. `test` is a task that is scheduled, or at
`isConnected`; `recvClosing` is the `innerClose` of `doRecv`; `tail` is past
`m_waitSem.notify`. -/
inductive ReadPc
  | absent
  | test
  | recv
  | recvClosing (stage : Closing)
  | closing (stage : Closing)
  | notify
  | tail
  | done
  | thrown
  deriving DecidableEq, Repr

/-- Where the `doWrite` of a call is, with what is left of `ctxs`. -/
inductive WritePc (M : Type)
  | absent
  | test
  | wait
  | blocked
  | swap
  | send (ctxs : List M)
  | closing (stage : Closing) (ctxs : List M)
  | clear
  | notify
  | done
  deriving DecidableEq, Repr

/-- `found` is a call that found `m_queue` empty and has not notified. -/
inductive EnqueuePc
  | ready
  | found
  | done
  deriving DecidableEq, Repr

inductive Outcome
  | ok
  | fail
  | throw
  deriving DecidableEq, Repr

structure State (P E M : Type) where
  connected : Bool
  start : P → StartPc
  read : P → ReadPc
  write : P → WritePc M
  enqueue : E → EnqueuePc
  waitSem : FiberSemaphore P
  sem : FiberSemaphore P
  queue : List M
  /-- the calls of `start` so far -/
  begun : Finset P
  /-- what was pushed into `m_queue`, and what `doSend` was called on -/
  pushed : List M
  sent : List M
  /-- the same since the socket was connected, with what was queued then -/
  connectionPushed : List M
  connectionSent : List M

inductive Action (P E M : Type)
  | start (call : P) (outcome : Outcome)
  | read (call : P) (outcome : Outcome)
  | write (call : P) (outcome : Outcome)
  | enqueue (call : E) (ctx : M)
  /-- the notification of a call that found the queue empty -/
  | notify (call : E)
  /-- the connection is closed by the user, or lost -/
  | close

variable {P E M : Type} [DecidableEq P] [DecidableEq E]

namespace State

def setStart (s : State P E M) (call : P) (pc : StartPc) : State P E M :=
  { s with start := Function.update s.start call pc }

def setRead (s : State P E M) (call : P) (pc : ReadPc) : State P E M :=
  { s with read := Function.update s.read call pc }

def setWrite (s : State P E M) (call : P) (pc : WritePc M) : State P E M :=
  { s with write := Function.update s.write call pc }

def setEnqueue (s : State P E M) (call : E) (pc : EnqueuePc) : State P E M :=
  { s with enqueue := Function.update s.enqueue call pc }

/-- The call that `m_waitSem` hands a permit to goes on after its wait. -/
def resumed : StartPc → StartPc
  | .blocked => .waitSecond
  | .blockedSecond => .owns
  | pc => pc

/-- `m_waitSem.wait`; the call goes to one place with a permit and to the other
without. -/
def waitSemWait (s : State P E M) (call : P) (taken queued : StartPc) :
    State P E M :=
  if 0 < s.waitSem.concurrency then
    { s with
      waitSem := { s.waitSem with
        concurrency := s.waitSem.concurrency - 1 } }.setStart call taken
  else
    { s with
      waitSem := { s.waitSem with
        waiters := s.waitSem.waiters ++ [call] } }.setStart call queued

def waitSemNotify (s : State P E M) : State P E M :=
  match s.waitSem.waiters with
  | [] =>
      { s with
        waitSem := { s.waitSem with
          concurrency := s.waitSem.concurrency + 1 } }
  | next :: waiters =>
      { s with waitSem := { s.waitSem with waiters := waiters } }.setStart next
        (resumed (s.start next))

def semWait (s : State P E M) (call : P) : State P E M :=
  if 0 < s.sem.concurrency then
    { s with
      sem := { s.sem with
        concurrency := s.sem.concurrency - 1 } }.setWrite call .swap
  else
    { s with
      sem := { s.sem with
        waiters := s.sem.waiters ++ [call] } }.setWrite call .blocked

def semNotify (s : State P E M) : State P E M :=
  match s.sem.waiters with
  | [] =>
      { s with sem := { s.sem with concurrency := s.sem.concurrency + 1 } }
  | next :: waiters =>
      { s with sem := { s.sem with waiters := waiters } }.setWrite next .swap

/-- One step of `innerClose`, and where it is then. -/
def innerClose (s : State P E M) : Closing → State P E M × Option Closing
  | .callback => (s, some .close)
  | .close => ({ s with connected := false }, some .notify)
  | .notify => (s.semNotify, some .clear)
  | .clear => ({ s with queue := [] }, none)

/-- `m_socket->reconnect` has succeeded. -/
def connect (s : State P E M) : State P E M :=
  { s with
    connected := true
    connectionPushed := s.queue
    connectionSent := [] }

/-- `doSend` is called. -/
def send (s : State P E M) (ctx : M) : State P E M :=
  { s with
    sent := s.sent ++ [ctx]
    connectionSent := s.connectionSent ++ [ctx] }

def startStep (s : State P E M) (call : P) (outcome : Outcome) :
    Option (State P E M) :=
  match s.start call with
  | .ready =>
      some { s.setStart call .wait with begun := insert call s.begun }
  | .wait => some (s.waitSemWait call .waitSecond .blocked)
  | .waitSecond => some (s.waitSemWait call .owns .blockedSecond)
  | .owns =>
      some (s.setStart call (if s.connected then .connectCb else .reconnect))
  | .reconnect =>
      match outcome with
      | .ok => some (s.connect.setStart call .connectCb)
      | .fail => some (s.setStart call (.closing .callback))
      | .throw => none
  | .connectCb =>
      match outcome with
      | .ok => some (s.setStart call .startRead)
      | .fail => some (s.setStart call (.closing .callback))
      | .throw => none
  | .closing stage =>
      if stage = .callback ∧ outcome = .throw then
        some (s.setStart call .thrown)
      else
        match s.innerClose stage with
        | (closed, some next) => some (closed.setStart call (.closing next))
        | (closed, none) => some (closed.setStart call .giveFirst)
  | .giveFirst => some (s.setStart call .giveSecond).waitSemNotify
  | .giveSecond => some (s.setStart call .done).waitSemNotify
  | .startRead => some ((s.setStart call .startWrite).setRead call .test)
  | .startWrite => some ((s.setStart call .done).setWrite call .test)
  | _ => none

def readStep (s : State P E M) (call : P) (outcome : Outcome) :
    Option (State P E M) :=
  match s.read call with
  | .test =>
      some (s.setRead call (if s.connected then .recv else .closing .callback))
  | .recv =>
      match outcome with
      | .ok => some (s.setRead call .test)
      | .fail => some (s.setRead call (.recvClosing .callback))
      | .throw => some (s.setRead call (.closing .callback))
  | .recvClosing stage =>
      if stage = .callback ∧ outcome = .throw then
        some (s.setRead call (.closing .callback))
      else
        match s.innerClose stage with
        | (closed, some next) => some (closed.setRead call (.recvClosing next))
        | (closed, none) => some (closed.setRead call .test)
  | .closing stage =>
      if stage = .callback ∧ outcome = .throw then
        some (s.setRead call .thrown)
      else
        match s.innerClose stage with
        | (closed, some next) => some (closed.setRead call (.closing next))
        | (closed, none) => some (closed.setRead call .notify)
  | .notify => some (s.setRead call .tail).waitSemNotify
  | .tail => some (s.setRead call .done)
  | _ => none

def writeStep (s : State P E M) (call : P) (outcome : Outcome) :
    Option (State P E M) :=
  match s.write call with
  | .test => some (s.setWrite call (if s.connected then .wait else .clear))
  | .wait => some (s.semWait call)
  | .swap => some ({ s with queue := [] }.setWrite call (.send s.queue))
  | .send [] => some (s.setWrite call .test)
  | .send (ctx :: ctxs) =>
      match outcome with
      | .ok => some ((s.send ctx).setWrite call (.send ctxs))
      | .fail => some ((s.send ctx).setWrite call (.closing .callback ctxs))
      | .throw => some ((s.send ctx).setWrite call .clear)
  | .closing stage ctxs =>
      if stage = .callback ∧ outcome = .throw then
        some (s.setWrite call .clear)
      else
        match s.innerClose stage with
        | (closed, some next) =>
            some (closed.setWrite call (.closing next ctxs))
        | (closed, none) => some (closed.setWrite call .test)
  | .clear => some ({ s with queue := [] }.setWrite call .notify)
  | .notify => some (s.setWrite call .done).waitSemNotify
  | _ => none

def step (s : State P E M) : Action P E M → Option (State P E M)
  | .start call outcome => s.startStep call outcome
  | .read call outcome => s.readStep call outcome
  | .write call outcome => s.writeStep call outcome
  | .enqueue call ctx =>
      match s.enqueue call with
      | .ready =>
          some ({ s with
            queue := s.queue ++ [ctx]
            pushed := s.pushed ++ [ctx]
            connectionPushed := s.connectionPushed ++ [ctx] }.setEnqueue call
              (if s.queue.isEmpty then .found else .done))
      | _ => none
  | .notify call =>
      match s.enqueue call with
      | .found => some (s.setEnqueue call .done).semNotify
      | _ => none
  | .close => some { s with connected := false }

/-- A stream just constructed; its socket may be connected already. -/
structure Initial (s : State P E M) : Prop where
  start : ∀ call, s.start call = .ready
  read : ∀ call, s.read call = .absent
  write : ∀ call, s.write call = .absent
  waitSem : s.waitSem = ⟨[], 2⟩
  sem : s.sem = ⟨[], 0⟩
  queue : s.queue = []
  begun : s.begun = ∅
  enqueue : ∀ call, s.enqueue call = .ready
  pushed : s.pushed = []
  sent : s.sent = []
  connectionPushed : s.connectionPushed = []
  connectionSent : s.connectionSent = []

end State

end Sylar.AsyncSocketStream.Lifecycle
