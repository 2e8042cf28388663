import Mathlib.Logic.Function.Basic
import Sylar.Scheduler.Model

namespace Sylar.IOManager

open Logic

/-! The events registered with an `IOManager`. Each operation is a section
under the mutex of one `FdContext`; it returns the tasks it passes to
`Scheduler::schedule`, or nothing where the source fails an assertion or
dereferences a null pointer. -/

abbrev Task := Scheduler.Task

/-- The callers pass one of these at a time, never `NONE` or both. -/
inductive Event
  | READ
  | WRITE
  deriving DecidableEq, Repr

/-- An `EventContext`; the scheduler is kept as whether it is non-null. -/
structure EventContext (F C : Type) where
  dwDataLength : UInt32
  scheduler : Bool
  fiber : Option F
  cb : Option C
  deriving DecidableEq, Repr

namespace EventContext

def new : EventContext F C where
  dwDataLength := 0
  scheduler := false
  fiber := none
  cb := none

/-- What `triggerEvent` schedules: the callback, or else the fiber. -/
def task (ctx : EventContext F C) : Option (Task F C) :=
  match ctx.cb with
  | some cb => some (.cb cb)
  | none => ctx.fiber.map .fiber

/-- `schedule` swaps what it is given into the queue. -/
def swapped (ctx : EventContext F C) : EventContext F C :=
  match ctx.cb with
  | some _ => { ctx with cb := none }
  | none => { ctx with fiber := none }

def assign (ctx : EventContext F C) : Task F C → EventContext F C
  | .cb cb => { ctx with scheduler := true, cb := some cb }
  | .fiber fiber => { ctx with scheduler := true, fiber := some fiber }

def unused (ctx : EventContext F C) : Bool :=
  !ctx.scheduler && ctx.fiber.isNone && ctx.cb.isNone

end EventContext

/-- An `FdContext`, with `events` as the flag of each event. -/
structure FdContext (P : Type) where
  read : Option P
  write : Option P
  events : Event → Bool

namespace FdContext

def new : FdContext P where
  read := none
  write := none
  events _ := false

def getContext (fd : FdContext P) : Event → Option P
  | .READ => fd.read
  | .WRITE => fd.write

def setContext (fd : FdContext P) (ctx : Option P) : Event → FdContext P
  | .READ => { fd with read := ctx }
  | .WRITE => { fd with write := ctx }

def resetContext (fd : FdContext P) (event : Event) : FdContext P :=
  fd.setContext none event

def setEvent (fd : FdContext P) (event : Event) (set : Bool) : FdContext P :=
  { fd with events := Function.update fd.events event set }

def register (fd : FdContext P) (event : Event) (ctx : P) : FdContext P :=
  (fd.setEvent event true).setContext (some ctx) event

def unregister (fd : FdContext P) (event : Event) : FdContext P :=
  (fd.setEvent event false).resetContext event

end FdContext

/-- `D` are the descriptors, `P` the addresses of the event contexts. A
descriptor that `m_fdContexts` does not have yet is kept with the empty
`FdContext` that `addEvent` makes for it. -/
structure State (D P F C : Type) where
  fdContexts : D → FdContext P
  contexts : P → EventContext F C
  pendingEventCount : UInt64

namespace State

variable {D P F C : Type} [DecidableEq D] [DecidableEq P]

def setFd (s : State D P F C) (fd : D) (ctx : FdContext P) : State D P F C :=
  { s with fdContexts := Function.update s.fdContexts fd ctx }

def setContext (s : State D P F C) (p : P) (ctx : EventContext F C) :
    State D P F C :=
  { s with contexts := Function.update s.contexts p ctx }

def lower (s : State D P F C) : State D P F C :=
  { s with pendingEventCount := s.pendingEventCount - 1 }

def createEventContext (s : State D P F C) (p : P) : State D P F C :=
  s.setContext p .new

def triggerEvent (s : State D P F C) (fd : D) (event : Event) :
    Option (State D P F C × List (Task F C)) :=
  if (s.fdContexts fd).events event then
    match (s.fdContexts fd).getContext event with
    | none => none
    | some p =>
        if (s.contexts p).scheduler then
          some ((s.setContext p (s.contexts p).swapped).setFd fd
            ((s.fdContexts fd).unregister event), (s.contexts p).task.toList)
        else none
  else
    some (s, [])

def addEvent (s : State D P F C) (fd : D) (event : Event) (p : P)
    (task : Task F C) : Option (State D P F C) :=
  if (s.fdContexts fd).events event then none
  else if (s.contexts p).unused then
    some { (s.setFd fd ((s.fdContexts fd).register event p)).setContext p
        ((s.contexts p).assign task) with
      pendingEventCount := s.pendingEventCount + 1 }
  else none

def delEvent (s : State D P F C) (fd : D) (event : Event) : Bool × State D P F C :=
  if (s.fdContexts fd).events event then
    (true, (s.setFd fd ((s.fdContexts fd).unregister event)).lower)
  else
    (false, s)

/-- `triggerEvent` finds the flag cleared. What `CancelIoEx` does is left to the
kernel. -/
def cancelEvent (s : State D P F C) (fd : D) (event : Event) :
    Option (Bool × State D P F C × List (Task F C)) :=
  if (s.fdContexts fd).events event then
    ((s.setFd fd ((s.fdContexts fd).setEvent event false)).lower.triggerEvent fd
      event).map (true, ·)
  else
    some (false, s, [])

def cancelOne (s : State D P F C) (fd : D) (event : Event) :
    Option (State D P F C × List (Task F C)) :=
  if (s.fdContexts fd).events event then
    (s.triggerEvent fd event).map fun (next, tasks) => (next.lower, tasks)
  else
    some (s, [])

def cancelAll (s : State D P F C) (fd : D) :
    Option (Bool × State D P F C × List (Task F C)) :=
  if (s.fdContexts fd).events .READ || (s.fdContexts fd).events .WRITE then
    (s.cancelOne fd .READ).bind fun (read, first) =>
      (read.cancelOne fd .WRITE).map fun (write, second) =>
        (true, write.setFd fd { write.fdContexts fd with events := fun _ => false },
          first ++ second)
  else
    some (false, s, [])

/-- What `idle` does under the mutex with a packet it has dequeued; the count is
there if it was lowered. -/
def dispatch (s : State D P F C) (fd : D) (overlapped : P) (dwTrans : UInt32) :
    Option (State D P F C × List (Task F C) × Option UInt64) :=
  let s := s.setContext overlapped
    { s.contexts overlapped with dwDataLength := dwTrans }
  if (s.fdContexts fd).events .READ ∧ (s.fdContexts fd).read = some overlapped then
    (s.triggerEvent fd .READ).map fun (next, tasks) =>
      (next.lower, tasks, some next.lower.pendingEventCount)
  else if (s.fdContexts fd).events .WRITE ∧
      (s.fdContexts fd).write = some overlapped then
    (s.triggerEvent fd .WRITE).map fun (next, tasks) =>
      (next.lower, tasks, some next.lower.pendingEventCount)
  else
    some (s, [], none)

end State

end Sylar.IOManager
