import Mathlib.Logic.Function.Basic
import Sylar.Logic.Reach

namespace Sylar.Scheduler

open Logic

/-! The workers of one `Scheduler`, each in `run()`, with the fibers they
resume and the `FiberSemaphore`s these wait on. A step is one access to what
the threads share: the section under `m_mutex`, a read or a write of a fiber's
`m_state`, a jump into or out of a fiber, or the store of its `m_ctx`. -/

inductive FiberState
  | INIT
  | HOLD
  | EXEC
  | TERM
  | READY
  | EXCEPT
  deriving DecidableEq, Repr

namespace FiberState

/-- `TERM` or `EXCEPT`: the callback of the fiber has returned or thrown. -/
def ended : FiberState → Bool
  | .TERM => true
  | .EXCEPT => true
  | _ => false

/-- What `Fiber::reset` asserts. -/
def resettable : FiberState → Bool
  | .TERM => true
  | .EXCEPT => true
  | .INIT => true
  | _ => false

end FiberState

inductive Task (F C : Type)
  | fiber (fiber : F)
  | cb (cb : C)
  deriving DecidableEq, Repr

/-- `FiberAndThread`; `none` is the thread id -1. -/
structure FiberAndThread (W F C : Type) where
  task : Task F C
  thread : Option W
  deriving DecidableEq, Repr

/-- Whether the fiber being run came out of the queue, with the thread id it
had there, or is the `cb_fiber` of the worker. -/
inductive Origin (W : Type)
  | entry (thread : Option W)
  | callback
  deriving DecidableEq, Repr

structure Job (W F : Type) where
  fiber : F
  origin : Origin W
  deriving DecidableEq, Repr

/-- Where a worker is in `run()`, or in the fiber it resumed. In `swapIn` it comes
to the assertion on `m_state`, to `m_state = EXEC` (`mark`) and to the jump
(`enter`). The code of the fiber is left through `YieldToHold`, `YieldToReady` or
the end of `MainFunc`, first before the assignment of `m_state` (`leave`), then
before the jump of `swapOut`; the worker lands in `swapIn`, before
`m_ctx = t.fctx`. After it come the tests for `READY` and for `TERM` and `EXCEPT`,
and what they lead to: `schedule`, `m_state = HOLD` or `reset(nullptr)`
(`retire`). A scan that took nothing ends in a second look at the queue and in
`idle()`. -/
inductive Pc (W F C : Type)
  | scan
  | took (ft : FiberAndThread W F C)
  | swapIn (job : Job W F)
  | mark (job : Job W F)
  | enter (job : Job W F)
  | body (job : Job W F)
  | leave (job : Job W F) (state : FiberState)
  | swapOut (job : Job W F)
  | landed (job : Job W F)
  | returned (job : Job W F)
  | testReady (job : Job W F)
  | testEnded (job : Job W F)
  | requeue (job : Job W F)
  | hold (job : Job W F)
  | retire (job : Job W F)
  | empty
  | recheck
  | idleIn
  | idle
  | idleOut
  | exited
  deriving DecidableEq, Repr

structure FiberSemaphore (F : Type) where
  waiters : List F
  concurrency : Nat
  deriving DecidableEq, Repr

structure State (W F S C : Type) where
  fibers : List (FiberAndThread W F C)
  state : F → FiberState
  /-- the fibers constructed so far -/
  created : F → Bool
  pc : W → Pc W F C
  /-- `cb_fiber` of each worker -/
  cbFiber : W → Option F
  /-- `m_state` of the `idle_fiber` of each worker -/
  idleFiber : W → FiberState
  semaphore : S → FiberSemaphore F
  activeThreadCount : Nat
  idleThreadCount : Nat
  stopFlags : Bool

/-- What a fiber does next on the worker that runs it. -/
inductive Op (W S : Type)
  | wait (semaphore : S)
  | switchTo (thread : Option W)
  | yieldToHold
  | yieldToReady
  | finish
  | throw

/-- A call made by a fiber, by an idle loop or by a thread outside the
scheduler. `notifyAll` is one `notify` for each waiter. -/
inductive Call (W F S C : Type)
  | create (fiber : F)
  | schedule (task : Task F C) (thread : Option W)
  | notify (semaphore : S)
  | stop

inductive Action (W F S C : Type)
  | work (worker : W)
  /-- a worker without a `cb_fiber` constructs one -/
  | construct (worker : W) (fiber : F)
  | run (worker : W) (op : Op W S)
  | call (call : Call W F S C)

variable {W F S C : Type} [DecidableEq W] [DecidableEq F] [DecidableEq S]

namespace State

def goto (s : State W F S C) (worker : W) (pc : Pc W F C) : State W F S C :=
  { s with pc := Function.update s.pc worker pc }

def setState (s : State W F S C) (fiber : F) (state : FiberState) :
    State W F S C :=
  { s with state := Function.update s.state fiber state }

def setCbFiber (s : State W F S C) (worker : W) (fiber : Option F) :
    State W F S C :=
  { s with cbFiber := Function.update s.cbFiber worker fiber }

def schedule (s : State W F S C) (task : Task F C) (thread : Option W) :
    State W F S C :=
  { s with fibers := s.fibers ++ [⟨task, thread⟩] }

/-- `stopping()`. -/
def stopping (s : State W F S C) : Bool :=
  s.stopFlags && s.fibers.isEmpty && s.activeThreadCount == 0

end State

/-- The scan of `m_fibers`: the first entry that is not for another thread and
whose fiber is not `EXEC`, with the list without it. -/
def scan (state : F → FiberState) (worker : W) :
    List (FiberAndThread W F C) →
      Option (FiberAndThread W F C × List (FiberAndThread W F C))
  | [] => none
  | it :: rest =>
      if it.thread ≠ none ∧ it.thread ≠ some worker then
        (scan state worker rest).map fun (ft, rest) => (ft, it :: rest)
      else
        match it.task with
        | .fiber fiber =>
            if state fiber = .EXEC then
              (scan state worker rest).map fun (ft, rest) => (ft, it :: rest)
            else some (it, rest)
        | .cb _ => some (it, rest)

/-- One step of a worker outside the code of a fiber. `none` where it has no
step: an assertion fails, the step is another action's, or `run()` is over. -/
def work (s : State W F S C) (worker : W) : Option (State W F S C) :=
  match s.pc worker with
  | .scan =>
      match scan s.state worker s.fibers with
      | none => some (s.goto worker .empty)
      | some (ft, rest) =>
          some ({ s with
            fibers := rest
            activeThreadCount := s.activeThreadCount + 1 }.goto worker (.took ft))
  | .took ft =>
      match ft.task with
      | .fiber fiber =>
          if (s.state fiber).ended then
            some ({ s with
              activeThreadCount := s.activeThreadCount - 1 }.goto worker .scan)
          else some (s.goto worker (.swapIn ⟨fiber, .entry ft.thread⟩))
      | .cb _ =>
          match s.cbFiber worker with
          | none => none
          | some fiber =>
              if (s.state fiber).resettable then
                some ((s.setState fiber .INIT).goto worker
                  (.swapIn ⟨fiber, .callback⟩))
              else none
  | .swapIn job =>
      if s.state job.fiber = .EXEC then none
      else some (s.goto worker (.mark job))
  | .mark job => some ((s.setState job.fiber .EXEC).goto worker (.enter job))
  | .enter job => some (s.goto worker (.body job))
  | .body _ => none
  | .leave job state =>
      if state.ended ∨ s.state job.fiber = .EXEC then
        some ((s.setState job.fiber state).goto worker (.swapOut job))
      else none
  | .swapOut job => some (s.goto worker (.landed job))
  | .landed job => some (s.goto worker (.returned job))
  | .returned job =>
      some ({ s with
        activeThreadCount := s.activeThreadCount - 1 }.goto worker
          (.testReady job))
  | .testReady job =>
      if s.state job.fiber = .READY then some (s.goto worker (.requeue job))
      else some (s.goto worker (.testEnded job))
  | .testEnded job =>
      if (s.state job.fiber).ended then
        match job.origin with
        | .entry _ => some (s.goto worker .scan)
        | .callback => some (s.goto worker (.retire job))
      else some (s.goto worker (.hold job))
  | .requeue job =>
      match job.origin with
      | .entry thread =>
          some ((s.schedule (.fiber job.fiber) thread).goto worker .scan)
      | .callback =>
          some (((s.schedule (.fiber job.fiber) none).setCbFiber worker
            none).goto worker .scan)
  | .hold job =>
      match job.origin with
      | .entry _ => some ((s.setState job.fiber .HOLD).goto worker .scan)
      | .callback =>
          some (((s.setState job.fiber .HOLD).setCbFiber worker none).goto
            worker .scan)
  | .retire job =>
      if (s.state job.fiber).resettable then
        some ((s.setState job.fiber .INIT).goto worker .scan)
      else none
  | .empty =>
      if s.idleFiber worker = .TERM then some (s.goto worker .exited)
      else some (s.goto worker .recheck)
  | .recheck =>
      if s.fibers ≠ [] then some (s.goto worker .scan)
      else
        some ({ s with idleThreadCount := s.idleThreadCount + 1 }.goto worker
          .idleIn)
  | .idleIn =>
      if s.idleFiber worker = .EXEC then none
      else
        some ({ s with
          idleFiber := Function.update s.idleFiber worker .EXEC }.goto worker
            .idle)
  | .idle =>
      some ({ s with
        idleFiber := Function.update s.idleFiber worker
          (if s.stopping then .TERM else .HOLD) }.goto worker .idleOut)
  | .idleOut =>
      some ({ s with
        idleThreadCount := s.idleThreadCount - 1
        idleFiber := Function.update s.idleFiber worker
          (if (s.idleFiber worker).ended then s.idleFiber worker
            else .HOLD) }.goto worker .scan)
  | .exited => none

/-- The code of a fiber reaches one of the operations that can suspend it. -/
def run (s : State W F S C) (worker : W) (op : Op W S) :
    Option (State W F S C) :=
  match s.pc worker with
  | .body job =>
      match op with
      | .wait semaphore =>
          let sem := s.semaphore semaphore
          if 0 < sem.concurrency then
            some { s with
              semaphore := Function.update s.semaphore semaphore
                { sem with concurrency := sem.concurrency - 1 } }
          else
            some ({ s with
              semaphore := Function.update s.semaphore semaphore
                { sem with waiters := sem.waiters ++ [job.fiber] } }.goto worker
                  (.leave job .HOLD))
      | .switchTo thread =>
          if thread = none ∨ thread = some worker then some s
          else
            some ((s.schedule (.fiber job.fiber) thread).goto worker
              (.leave job .HOLD))
      | .yieldToHold => some (s.goto worker (.leave job .HOLD))
      | .yieldToReady => some (s.goto worker (.leave job .READY))
      | .finish => some (s.goto worker (.leave job .TERM))
      | .throw => some (s.goto worker (.leave job .EXCEPT))
  | _ => none

def call (s : State W F S C) : Call W F S C → Option (State W F S C)
  | .create fiber =>
      if s.created fiber then none
      else some { s with created := Function.update s.created fiber true }
  | .schedule task thread =>
      match task with
      | .fiber fiber =>
          if s.created fiber then some (s.schedule task thread) else none
      | .cb _ => some (s.schedule task thread)
  | .notify semaphore =>
      let sem := s.semaphore semaphore
      match sem.waiters with
      | [] =>
          some { s with
            semaphore := Function.update s.semaphore semaphore
              { sem with concurrency := sem.concurrency + 1 } }
      | next :: waiters =>
          some ({ s with
            semaphore := Function.update s.semaphore semaphore
              { sem with waiters := waiters } }.schedule (.fiber next) none)
  | .stop => some { s with stopFlags := true }

/-- A worker without a `cb_fiber` runs a callback in a new fiber. -/
def construct (s : State W F S C) (worker : W) (fiber : F) :
    Option (State W F S C) :=
  match s.pc worker, s.cbFiber worker with
  | .took ⟨.cb _, _⟩, none =>
      if s.created fiber then none
      else
        some ((({ s with
          created := Function.update s.created fiber true }.setState fiber
            .INIT).setCbFiber worker (some fiber)).goto worker
              (.swapIn ⟨fiber, .callback⟩))
  | _, _ => none

def step (s : State W F S C) : Action W F S C → Option (State W F S C)
  | .work worker => work s worker
  | .construct worker fiber => construct s worker fiber
  | .run worker op => run s worker op
  | .call request => call s request

/-- Every worker enters `run()` with nothing queued; fibers are created and
scheduled by calls. -/
structure Initial (s : State W F S C) : Prop where
  fibers : s.fibers = []
  created : ∀ fiber, s.created fiber = false
  pc : ∀ worker, s.pc worker = .scan
  cbFiber : ∀ worker, s.cbFiber worker = none
  waiters : ∀ semaphore, (s.semaphore semaphore).waiters = []

end Sylar.Scheduler
