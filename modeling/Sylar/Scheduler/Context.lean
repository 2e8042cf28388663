import Sylar.Logic.OneShot
import Sylar.Scheduler.Stages

namespace Sylar.Scheduler

open Logic

/-! The execution contexts that fibers and threads are suspended in. A jump
suspends its caller into a new context, which the target gets as `t.fctx`, or
as the argument of `MainFunc`, and stores. -/

/-- A fiber that a worker resumes from `run()`. -/
inductive Fib (W F : Type)
  | task (fiber : F)
  | idle (worker : W)
  deriving DecidableEq, Repr

/-- What is suspended in a context: a fiber before `MainFunc`, in `swapOut`, or in
the `swapOut` at the end of `MainFunc`; `run()` in `swapIn`; the root fiber
before `CallerMainFunc`; `stop()` in `call`; the root fiber in `back`. -/
inductive Suspended (W F : Type)
  | main (fib : Fib W F)
  | swapOut (fib : Fib W F)
  | ended (fib : Fib W F)
  | swapIn (worker : W) (fib : Fib W F)
  | callerMain
  | call
  | back
  deriving DecidableEq, Repr

/-- Where the caller thread is: before `m_rootFiber->call()`, in the root fiber,
or back in `stop()`. -/
inductive Phase
  | outside
  | running
  | returned
  deriving DecidableEq, Repr

structure Contexts (W F : Type) where
  pool : Pool (Suspended W F)
  /-- `m_ctx` of each fiber -/
  ctx : Fib W F → Nat
  /-- `m_ctx` of the `t_threadFiber` of each thread -/
  threadCtx : W → Nat
  /-- `m_ctx` of `m_rootFiber` -/
  rootCtx : Nat
  /-- `t.fctx` in the `swapIn` that a worker has landed in -/
  transfer : W → Nat
  phase : Phase
  /-- whether the worker came into the fiber it runs through `MainFunc` -/
  entered : W → Bool
  /-- the context of the `swapIn` that last resumed a fiber -/
  resumed : Fib W F → Nat
  /-- a jump went to a used context, or elsewhere than the code relies on -/
  astray : Bool

variable {W F S C : Type} [DecidableEq W] [DecidableEq F] [DecidableEq S]

namespace Contexts

-- the worker on the caller thread, if the scheduler was made with `use_caller`
variable (caller : Option W)

/-- `GetMainFiber()->m_ctx`: the root fiber's on the caller thread, and else that
of the thread. -/
def mainCtx (c : Contexts W F) (worker : W) : Nat :=
  if caller = some worker then c.rootCtx else c.threadCtx worker

def setThreadCtx (c : Contexts W F) (worker : W) (context : Nat) :
    Contexts W F :=
  { c with threadCtx := Function.update c.threadCtx worker context }

def setMainCtx (c : Contexts W F) (worker : W) (context : Nat) :
    Contexts W F :=
  if caller = some worker then { c with rootCtx := context }
  else c.setThreadCtx worker context

/-- `make_fcontext` for `MainFunc`. -/
def make (c : Contexts W F) (fib : Fib W F) : Contexts W F :=
  { c with
    pool := c.pool.make (.main fib)
    ctx := Function.update c.ctx fib c.pool.next }

/-- A jump, with what the caller takes its target for. -/
def jump (c : Contexts W F) (target : Nat) (from' : Suspended W F)
    (relied : Bool) : Contexts W F :=
  { c with
    pool := c.pool.jump target from'
    astray := c.astray || !(c.pool.jumps target = 0 && relied) }

/-- The jump of `swapIn`, and what the fiber stores: `MainFunc` in
`t_threadFiber`, and `swapOut` in `GetMainFiber()`. -/
def swapIn (c : Contexts W F) (worker : W) (fib : Fib W F) : Contexts W F :=
  let target := c.ctx fib
  let enters : Bool := c.pool.holds target = .main fib
  let arrived := { c.jump target (.swapIn worker fib)
      (enters || c.pool.holds target = .swapOut fib) with
    entered := Function.update c.entered worker enters
    resumed := Function.update c.resumed fib c.pool.next }
  if enters then arrived.setThreadCtx worker c.pool.next
  else arrived.setMainCtx caller worker c.pool.next

/-- The jump of `swapOut`. -/
def swapOut (c : Contexts W F) (worker : W) (fib : Fib W F) (final : Bool) :
    Contexts W F :=
  let target := c.mainCtx caller worker
  { c.jump target (if final then .ended fib else .swapOut fib)
      (c.pool.holds target = .swapIn worker fib && target = c.resumed fib) with
    transfer := Function.update c.transfer worker c.pool.next
    entered := Function.update c.entered worker false }

/-- `m_ctx = t.fctx` in `swapIn`. -/
def store (c : Contexts W F) (worker : W) (fib : Fib W F) : Contexts W F :=
  { c with ctx := Function.update c.ctx fib (c.transfer worker) }

/-- `m_rootFiber->call()`; `CallerMainFunc` stores the context of `stop()`. -/
def call (c : Contexts W F) (worker : W) : Contexts W F :=
  { (c.jump c.rootCtx .call (c.pool.holds c.rootCtx = .callerMain)).setThreadCtx
      worker c.pool.next with
    phase := .running }

/-- The `back` at the end of `CallerMainFunc`. -/
def back (c : Contexts W F) (worker : W) : Contexts W F :=
  { c.jump (c.threadCtx worker) .back
      (c.pool.holds (c.threadCtx worker) = .call) with
    rootCtx := c.pool.next
    phase := .returned }

end Contexts

/-- A scheduler with the contexts of its fibers and threads. -/
structure Threads (W F S C : Type) where
  scheduler : State W F S C
  contexts : Contexts W F
  /-- whether the worker leaves the fiber at the end of `MainFunc` -/
  final : W → Bool

def Action.worker? : Action W F S C → Option W
  | .work worker => some worker
  | .construct worker _ => some worker
  | .run worker _ => some worker
  | .call _ => none

namespace Threads

/-- A step of the scheduler, or on the caller thread the `call` of `stop()` and
the `back` at the end of `CallerMainFunc`. -/
inductive Event (W F S C : Type)
  | act (action : Action W F S C)
  | call
  | back

variable (caller : Option W)

/-- What an action does with contexts. -/
def act (t : Threads W F S C) : Action W F S C → Contexts W F
  | .work worker =>
      let c := t.contexts
      match t.scheduler.pc worker with
      | .took ⟨.cb _, _⟩ =>
          match t.scheduler.cbFiber worker with
          | some fiber => c.make (.task fiber)
          | none => c
      | .enter job => c.swapIn caller worker (.task job.fiber)
      | .swapOut job =>
          c.swapOut caller worker (.task job.fiber) (t.final worker)
      | .landed job => c.store worker (.task job.fiber)
      | .retire job => c.make (.task job.fiber)
      | .idleIn => c.swapIn caller worker (.idle worker)
      | .idle =>
          (c.swapOut caller worker (.idle worker) t.scheduler.stopping).store
            worker (.idle worker)
      | _ => c
  | .construct _ fiber => t.contexts.make (.task fiber)
  | .call (.create fiber) => t.contexts.make (.task fiber)
  | _ => t.contexts

def leave (t : Threads W F S C) : Action W F S C → W → Bool
  | .work worker =>
      match t.scheduler.pc worker with
      | .leave _ state => Function.update t.final worker state.ended
      | _ => t.final
  | _ => t.final

/-- The caller thread is in `run()` only between `call` and `back`. -/
def Away (t : Threads W F S C) (action : Action W F S C) : Prop :=
  caller ≠ none ∧ action.worker? = caller ∧ t.contexts.phase ≠ .running

instance (t : Threads W F S C) (action : Action W F S C) :
    Decidable (t.Away caller action) :=
  inferInstanceAs (Decidable (_ ∧ _ ∧ _))

/-- After a jump that went astray nothing is known. -/
def step (t : Threads W F S C) : Event W F S C → Option (Threads W F S C)
  | .act action =>
      if t.contexts.astray ∨ t.Away caller action then none
      else
        (Scheduler.step t.scheduler action).map fun next =>
          ⟨next, t.act caller action, t.leave action⟩
  | .call =>
      match caller with
      | none => none
      | some worker =>
          if t.contexts.astray = false ∧ t.contexts.phase = .outside ∧
              t.scheduler.stopFlags = true ∧ t.scheduler.stopping = false then
            some { t with contexts := t.contexts.call worker }
          else none
  | .back =>
      match caller with
      | none => none
      | some worker =>
          match t.scheduler.pc worker with
          | .exited =>
              if t.contexts.astray = false ∧ t.contexts.phase = .running then
                some { t with contexts := t.contexts.back worker }
              else none
          | _ => none

/-- Nothing was jumped to; the idle fibers and the root fiber are constructed. -/
structure Opened (t : Threads W F S C) : Prop where
  scheduler : Started t.scheduler
  jumps : ∀ context, t.contexts.pool.jumps context = 0
  idle : ∀ worker,
    t.contexts.pool.Live (t.contexts.ctx (.idle worker)) (.main (.idle worker))
  root : caller ≠ none → t.contexts.pool.Live t.contexts.rootCtx .callerMain
  phase : t.contexts.phase = .outside
  entered : ∀ worker, t.contexts.entered worker = false
  astray : t.contexts.astray = false

end Threads

end Sylar.Scheduler
