import Mathlib.Data.Fintype.Basic
import Sylar.IOManager.Registered

namespace Sylar.IOManager.DoSocket

open Logic

/-! Fibers in `do_socket` on one descriptor that is associated with the
completion port, the kernel, the workers that dequeue and dispatch completion
packets, and the timers of the calls. -/

/-- One overlapped call, told apart from all others by its number. -/
structure Call (P : Type) where
  op : Nat
  eventCtx : P
  event : Event
  timed : Bool
  woken : Bool
  deriving DecidableEq, Repr

/-- Where `do_socket` is after `WSA_IO_PENDING`: before `addConditionTimer`,
before `addEvent`, in `YieldToHold`, before `timer->cancel()`, and before the
test of `cancelled`. -/
inductive Stage
  | issued
  | armed
  | waiting
  | resumed
  | returning
  deriving DecidableEq, Repr

/-- A fiber outside of `do_socket`, with what it returned last, or inside. -/
inductive Frame (P : Type)
  | out (result : UInt32)
  | inside (stage : Stage) (call : Call P)
  deriving DecidableEq, Repr

namespace Frame

def call : Frame P → Option (Call P)
  | .out _ => none
  | .inside _ call => some call

def wake : Frame P → Frame P
  | .out result => .out result
  | .inside stage call => .inside stage { call with woken := true }

end Frame

inductive Hook
  | s_recv
  | s_recvfrom
  | s_send
  | s_sendto
  deriving DecidableEq, Repr

/-- The event a wrapper passes to `do_socket`; all of them pass `SO_RCVTIMEO`
with it. -/
def Hook.event : Hook → Event
  | .s_recv => .READ
  | .s_recvfrom => .READ
  | .s_send => .READ
  | .s_sendto => .READ

structure Operation (P : Type) where
  overlapped : P
  op : Nat
  deriving DecidableEq, Repr

structure Packet (P : Type) extends Operation P where
  dwTrans : UInt32
  /-- whether `GetQueuedCompletionStatus` returns non-zero with it -/
  succeeded : Bool
  deriving DecidableEq, Repr

/-- How the overlapped call returns: at once, when a packet is queued all the
same and `do_socket` returns the sum of the buffer lengths, with an error, or
with `WSA_IO_PENDING`. -/
inductive Issue
  | completed (dwTrans : UInt32) (length : UInt32)
  | failed
  | pending
  deriving DecidableEq, Repr

/-- Where the callback of an expired timer is: before `winfo.lock()` and the test
of `t->cancelled`, before the assignment to it, or before `cancelEvent`. -/
inductive TimeoutStage
  | lock
  | mark
  | cancelEvent
  deriving DecidableEq, Repr

structure Timeout (F : Type) where
  fiber : F
  op : Nat
  event : Event
  stage : TimeoutStage
  deriving DecidableEq, Repr

structure State (P F W C : Type) where
  io : IOManager.State Unit P F C
  frame : F → Frame P
  timer : F → Bool
  cancelled : F → Bool
  inflight : List (Operation P)
  /-- the completion port -/
  queue : List (Packet P)
  /-- what each worker has dequeued and not dispatched -/
  held : W → Option (Packet P)
  /-- the callbacks of expired timers, which are no longer in the `TimerManager` -/
  timeouts : List (Timeout F)
  /-- the operations whose packet was dispatched or dropped -/
  processed : List Nat
  /-- how many overlapped calls were made -/
  calls : Nat

inductive Action (P F W : Type)
  | issue (fiber : F) (event : Event) (timed : Bool) (eventCtx : P) (result : Issue)
  | run (fiber : F)
  | complete (index : Nat) (dwTrans : UInt32) (succeeded : Bool)
  | dequeue (worker : W)
  | dispatch (worker : W)
  | expire (fiber : F)
  | timeout (index : Nat)

variable {P F W C : Type} [DecidableEq P] [DecidableEq F] [DecidableEq W]
  [DecidableEq C] [Fintype F]

namespace State

variable (s : State P F W C)

def setFrame (fiber : F) (frame : Frame P) : State P F W C :=
  { s with frame := Function.update s.frame fiber frame }

/-- `Scheduler::schedule` of what an operation of the `IOManager` returned. -/
def wake (tasks : List (Task F C)) : State P F W C :=
  { s with frame := fun fiber =>
      if .fiber fiber ∈ tasks then (s.frame fiber).wake else s.frame fiber }

/-- The fiber is in the `do_socket` call with this number. -/
def running (fiber : F) (op : Nat) : Bool := (s.frame fiber).call.any (·.op == op)

/-- The allocator hands out no address that is in use. -/
def Fresh (p : P) : Prop :=
  (∀ fiber, (s.frame fiber).call.all fun call => call.eventCtx ≠ p) ∧
    (s.io.fdContexts ()).read ≠ some p ∧ (s.io.fdContexts ()).write ≠ some p

instance (p : P) : Decidable (s.Fresh p) :=
  inferInstanceAs (Decidable ((∀ fiber, (s.frame fiber).call.all fun call =>
    call.eventCtx ≠ p) ∧ (s.io.fdContexts ()).read ≠ some p ∧
      (s.io.fdContexts ()).write ≠ some p))

end State

variable (s : State P F W C)

/-- The overlapped call, with the event context made for it. -/
def issue (fiber : F) (event : Event) (timed : Bool) (eventCtx : P) :
    Issue → State P F W C
  | .completed dwTrans length => { s.setFrame fiber (.out length) with
      io := s.io.createEventContext eventCtx
      queue := s.queue ++ [⟨⟨eventCtx, s.calls⟩, dwTrans, true⟩]
      calls := s.calls + 1 }
  | .failed => { s.setFrame fiber (.out 0) with
      io := s.io.createEventContext eventCtx
      calls := s.calls + 1 }
  | .pending => { s.setFrame fiber
        (.inside .issued ⟨s.calls, eventCtx, event, timed, false⟩) with
      io := s.io.createEventContext eventCtx
      cancelled := Function.update s.cancelled fiber false
      inflight := ⟨eventCtx, s.calls⟩ :: s.inflight
      calls := s.calls + 1 }

def run (fiber : F) : Option (State P F W C) :=
  match s.frame fiber with
  | .out _ => none
  | .inside .issued call =>
      some { s.setFrame fiber (.inside .armed call) with
        timer := Function.update s.timer fiber call.timed }
  | .inside .armed call =>
      (s.io.addEvent () call.event call.eventCtx (.fiber fiber)).map fun io =>
        { s.setFrame fiber (.inside .waiting call) with io := io }
  | .inside .waiting call =>
      if call.woken then some (s.setFrame fiber (.inside .resumed call)) else none
  | .inside .resumed call =>
      some { s.setFrame fiber (.inside .returning call) with
        timer := Function.update s.timer fiber false }
  | .inside .returning call =>
      some (s.setFrame fiber (.out
        (if s.cancelled fiber then 0
        else (s.io.contexts call.eventCtx).dwDataLength)))

/-- `GetQueuedCompletionStatus`; `idle` waits on after a failed completion. -/
def dequeue (worker : W) : Option (State P F W C) :=
  match s.held worker, s.queue with
  | none, packet :: rest =>
      if packet.succeeded then
        some { s with
          queue := rest
          held := Function.update s.held worker (some packet) }
      else
        some { s with queue := rest, processed := packet.op :: s.processed }
  | _, _ => none

def dispatch (worker : W) : Option (State P F W C) :=
  (s.held worker).bind fun packet =>
    (s.io.dispatch () packet.overlapped packet.dwTrans).map fun (io, tasks, _) =>
      { s with
        io := io
        held := Function.update s.held worker none
        processed := packet.op :: s.processed }.wake tasks

/-- The callback of an expired timer; `tinfo` is gone once its call has returned. -/
def onTimeout (index : Nat) (timeout : Timeout F) : Option (State P F W C) :=
  match timeout.stage with
  | .lock =>
      if s.running timeout.fiber timeout.op ∧ s.cancelled timeout.fiber = false then
        some { s with timeouts := s.timeouts.set index { timeout with stage := .mark } }
      else some { s with timeouts := s.timeouts.eraseIdx index }
  | .mark => some { s with
      cancelled :=
        if s.running timeout.fiber timeout.op then
          Function.update s.cancelled timeout.fiber true
        else s.cancelled
      timeouts := s.timeouts.set index { timeout with stage := .cancelEvent } }
  | .cancelEvent =>
      (s.io.cancelEvent () timeout.event).map fun (_, io, tasks) =>
        { s with io := io, timeouts := s.timeouts.eraseIdx index }.wake tasks

def step : Action P F W → Option (State P F W C)
  | .issue fiber event timed eventCtx result =>
      match s.frame fiber with
      | .out _ =>
          if s.Fresh eventCtx then some (issue s fiber event timed eventCtx result)
          else none
      | .inside _ _ => none
  | .run fiber => run s fiber
  | .complete index dwTrans succeeded =>
      (s.inflight[index]?).map fun operation => { s with
        inflight := s.inflight.eraseIdx index
        queue := s.queue ++ [⟨operation, dwTrans, succeeded⟩] }
  | .dequeue worker => dequeue s worker
  | .dispatch worker => dispatch s worker
  | .expire fiber =>
      match s.frame fiber with
      | .out _ => none
      | .inside _ call =>
          if s.timer fiber then
            some { s with
              timer := Function.update s.timer fiber false
              timeouts := ⟨fiber, call.op, call.event, .lock⟩ :: s.timeouts }
          else none
  | .timeout index => (s.timeouts[index]?).bind (onTimeout s index)

variable {s} {t : State P F W C}

omit [DecidableEq P] [DecidableEq W] [Fintype F] in
theorem wake_nil : s.wake [] = s := by
  unfold State.wake
  simp

theorem issue_cases {fiber : F} {event : Event} {timed : Bool} {eventCtx : P}
    {result : Issue}
    (taken : step s (.issue fiber event timed eventCtx result) = some t) :
    ∃ before, s.frame fiber = .out before ∧ s.Fresh eventCtx ∧
      t = issue s fiber event timed eventCtx result := by
  simp only [step] at taken
  split at taken
  · rename_i before place
    split at taken
    · rename_i fresh
      cases taken
      exact ⟨before, place, fresh, rfl⟩
    · cases taken
  · cases taken

omit [DecidableEq P] [DecidableEq F] [DecidableEq C] [Fintype F] in
/-- A worker keeps the packet it dequeues, or drops it as failed. -/
theorem dequeue_cases {worker : W} (taken : dequeue s worker = some t) :
    ∃ packet rest, s.queue = packet :: rest ∧
      (t = { s with
          queue := rest
          held := Function.update s.held worker (some packet) } ∨
        packet.succeeded = false ∧
          t = { s with queue := rest, processed := packet.op :: s.processed }) := by
  unfold dequeue at taken
  split at taken
  · rename_i packet rest free queue
    refine ⟨packet, rest, queue, ?_⟩
    split at taken
    · cases taken
      exact .inl rfl
    · rename_i failed
      cases taken
      exact .inr ⟨by simpa using failed, rfl⟩
  · cases taken

theorem expire_cases {fiber : F} (taken : step s (.expire fiber) = some t) :
    ∃ timeout, t = { s with
      timer := Function.update s.timer fiber false
      timeouts := timeout :: s.timeouts } := by
  simp only [step] at taken
  split at taken
  · cases taken
  · rename_i stage call place
    split at taken
    · cases taken
      exact ⟨_, rfl⟩
    · cases taken

/-- A callback touches `tinfo` and its own progress, until it cancels its event. -/
theorem timeout_cases {index : Nat} (taken : step s (.timeout index) = some t) :
    (∃ cancelled timeouts, t = { s with cancelled := cancelled, timeouts := timeouts }) ∨
      ∃ timeout found io, s.timeouts[index]? = some timeout ∧
        timeout.stage = .cancelEvent ∧
        s.io.cancelEvent () timeout.event = some (found, io, []) ∧
        t = { s with io := io, timeouts := s.timeouts.eraseIdx index } := by
  obtain ⟨timeout, present, taken⟩ := Option.bind_eq_some_iff.mp taken
  unfold onTimeout at taken
  split at taken
  · split at taken
    · cases taken
      exact .inl ⟨s.cancelled, _, rfl⟩
    · cases taken
      exact .inl ⟨s.cancelled, _, rfl⟩
  · cases taken
    exact .inl ⟨_, _, rfl⟩
  · rename_i stage
    obtain ⟨⟨found, io, tasks⟩, cancelled, rfl⟩ := Option.map_eq_some_iff.mp taken
    obtain rfl := IOManager.State.cancelEvent_silent cancelled
    exact .inr ⟨timeout, found, io, present, stage, cancelled, wake_nil⟩

/-- No fiber is in `do_socket` and nothing is registered or under way. -/
structure Initial (s : State P F W C) : Prop where
  fdContexts : s.io.fdContexts () = .new
  frame : ∀ fiber, ∃ result, s.frame fiber = .out result
  timer : ∀ fiber, s.timer fiber = false
  inflight : s.inflight = []
  queue : s.queue = []
  held : ∀ worker, s.held worker = none
  timeouts : s.timeouts = []
  processed : s.processed = []

/-- The fibers of `doRead` and `doWrite` of one `AsyncSocketStream`. -/
inductive Side
  | doRead
  | doWrite
  deriving DecidableEq, Repr

instance : Fintype Side where
  elems := {.doRead, .doWrite}
  complete side := by cases side <;> simp

def Side.hook : Side → Hook
  | .doRead => .s_recv
  | .doWrite => .s_send

/-- Each side makes its calls through its wrapper. -/
def Hooked : Action P Side W → Prop
  | .issue side event _ _ _ => event = side.hook.event
  | _ => True

instance : (action : Action P Side W) → Decidable (Hooked action)
  | .issue side event _ _ _ => inferInstanceAs (Decidable (event = side.hook.event))
  | .run _ => inferInstanceAs (Decidable True)
  | .complete _ _ _ => inferInstanceAs (Decidable True)
  | .dequeue _ => inferInstanceAs (Decidable True)
  | .dispatch _ => inferInstanceAs (Decidable True)
  | .expire _ => inferInstanceAs (Decidable True)
  | .timeout _ => inferInstanceAs (Decidable True)

end Sylar.IOManager.DoSocket
