import Sylar.Logic.Count
import Sylar.Logic.Ledger
import Sylar.Scheduler.Exclusive

namespace Sylar.Scheduler

open Logic

/-! The scheduler beside a ledger of the entries pushed into `m_fibers`: their
places in the order of the pushes, who took each of them, and what the taker did
with it. Nothing the workers do depends on the ledger. -/

variable {W F S C : Type}

def Origin.thread : Origin W → Option W
  | .entry thread => thread
  | .callback => none

/-- The worker that took an entry, and the state the fiber of the entry had
then. -/
structure Taker (W : Type) where
  worker : W
  state : Option FiberState
  deriving DecidableEq, Repr

/-- How a worker is done with an entry: it has jumped into the fiber the entry
runs in, or found the fiber of the entry ended. -/
inductive Outcome (F : Type)
  | resumed (fiber : F)
  | dropped (fiber : F) (state : FiberState)
  deriving DecidableEq, Repr

def Outcome.Settles (task : Task F C) : Outcome F → Prop
  | .resumed fiber => ∀ own, task = .fiber own → fiber = own
  | .dropped fiber state => task = .fiber fiber ∧ state.ended = true

structure Accounts (W F S C : Type) where
  scheduler : State W F S C
  ledger : Ledger (FiberAndThread W F C) (Taker W)
  /-- the place of the entry a worker has taken and is not done with -/
  held : W → Option Nat
  outcomes : List (Nat × W × Outcome F)

inductive Request (W F S C : Type)
  | act (action : Action W F S C)
  /-- `schedule(begin, end)`; `none` is a null fiber or function -/
  | batch (tasks : List (Option (Task F C)))

variable [DecidableEq W] [DecidableEq F] [DecidableEq S]

/-- The entries the scan does not pass over. -/
def takable (state : F → FiberState) (worker : W)
    (it : FiberAndThread W F C) : Bool :=
  (it.thread = none ∨ it.thread = some worker) &&
    match it.task with
    | .fiber fiber => state fiber != .EXEC
    | .cb _ => true

/-- The entries a step appends to `m_fibers`. -/
def pushes (s : State W F S C) : Action W F S C → List (FiberAndThread W F C)
  | .work worker =>
      match s.pc worker with
      | .requeue job => [⟨.fiber job.fiber, job.origin.thread⟩]
      | _ => []
  | .construct _ _ => []
  | .run worker op =>
      match s.pc worker, op with
      | .body job, .switchTo thread =>
          if thread = none ∨ thread = some worker then []
          else [⟨.fiber job.fiber, thread⟩]
      | _, _ => []
  | .call (.schedule task thread) => [⟨task, thread⟩]
  | .call (.notify semaphore) =>
      match (s.semaphore semaphore).waiters with
      | [] => []
      | next :: _ => [⟨.fiber next, none⟩]
  | .call _ => []

def batchEntries (tasks : List (Option (Task F C))) :
    List (FiberAndThread W F C) :=
  tasks.filterMap fun task => task.map fun task => ⟨task, none⟩

/-- A caller can only pass fibers that were created. -/
def exists? (created : F → Bool) : Option (Task F C) → Bool
  | some (.fiber fiber) => created fiber
  | _ => true

namespace State

def entryState (s : State W F S C) (it : FiberAndThread W F C) :
    Option FiberState :=
  match it.task with
  | .fiber fiber => some (s.state fiber)
  | .cb _ => none

/-- `schedule(begin, end)`, all of it in one section under `m_mutex`. -/
def scheduleAll (s : State W F S C) (tasks : List (Option (Task F C))) :
    State W F S C :=
  { s with fibers := s.fibers ++ batchEntries tasks }

end State

namespace Accounts

/-- The entry at `position` of the queue leaves it. -/
def take (a : Accounts W F S C) (worker : W) (position : Nat) :
    Accounts W F S C :=
  if inside : position < a.ledger.waiting.length then
    { a with
      ledger := a.ledger.take ⟨position, inside⟩ ⟨worker,
        a.scheduler.entryState (a.ledger.waiting.get ⟨position, inside⟩).value⟩
      held := Function.update a.held worker
        (some (a.ledger.waiting.get ⟨position, inside⟩).place) }
  else a

def settle (a : Accounts W F S C) (worker : W) (outcome : Outcome F) :
    Accounts W F S C :=
  match a.held worker with
  | none => a
  | some place =>
      { a with
        held := Function.update a.held worker none
        outcomes := a.outcomes ++ [(place, worker, outcome)] }

/-- What a step of the worker means for the entry it holds. -/
def work (a : Accounts W F S C) (worker : W) : Accounts W F S C :=
  match a.scheduler.pc worker with
  | .scan =>
      a.take worker
        (a.scheduler.fibers.findIdx (takable a.scheduler.state worker))
  | .took ⟨.fiber fiber, _⟩ =>
      if (a.scheduler.state fiber).ended then
        a.settle worker (.dropped fiber (a.scheduler.state fiber))
      else a
  | .enter job => a.settle worker (.resumed job.fiber)
  | _ => a

def act (a : Accounts W F S C) (action : Action W F S C) : Accounts W F S C :=
  match action with
  | .work worker => a.work worker
  | _ => a

def step (a : Accounts W F S C) : Request W F S C → Option (Accounts W F S C)
  | .act action =>
      (Scheduler.step a.scheduler action).map fun next =>
        { a.act action with
          scheduler := next
          ledger := (a.act action).ledger.pushAll (pushes a.scheduler action) }
  | .batch tasks =>
      if tasks.all (exists? a.scheduler.created) then
        some { a with
          scheduler := a.scheduler.scheduleAll tasks
          ledger := a.ledger.pushAll (batchEntries tasks) }
      else none

end Accounts

/-! The scan takes the first entry that can be taken. -/

omit [DecidableEq F] in
theorem scan_cons (state : F → FiberState) (worker : W)
    (it : FiberAndThread W F C) (rest : List (FiberAndThread W F C)) :
    scan state worker (it :: rest) =
      if takable state worker it then some (it, rest)
      else (scan state worker rest).map fun (ft, rest) => (ft, it :: rest) := by
  conv_lhs => unfold scan
  obtain ⟨task, thread⟩ := it
  by_cases own : thread = none ∨ thread = some worker
  · have pass : ¬(thread ≠ none ∧ thread ≠ some worker) := by tauto
    rw [if_neg pass]
    cases task with
    | fiber fiber =>
        by_cases executing : state fiber = .EXEC
        · simp [takable, executing]
        · simp [takable, own, executing]
    | cb callback => simp [takable, own]
  · have pass : thread ≠ none ∧ thread ≠ some worker := by tauto
    rw [if_pos pass]
    simp [takable, own]

omit [DecidableEq F] in
theorem scan_some {state : F → FiberState} {worker : W}
    {fibers rest : List (FiberAndThread W F C)} {ft : FiberAndThread W F C}
    (found : scan state worker fibers = some (ft, rest)) :
    fibers[fibers.findIdx (takable state worker)]? = some ft ∧
      rest = fibers.eraseIdx (fibers.findIdx (takable state worker)) ∧
      takable state worker ft = true := by
  induction fibers generalizing rest with
  | nil => cases found
  | cons it fibers ih =>
      rw [scan_cons] at found
      cases free : takable state worker it with
      | true =>
          rw [free] at found
          cases found
          simp [List.findIdx_cons, free]
      | false =>
          rw [free] at found
          obtain ⟨⟨taken, remaining⟩, result, same⟩ :=
            Option.map_eq_some_iff.mp found
          cases same
          obtain ⟨here, left, fits⟩ := ih result
          simp [List.findIdx_cons, free, here, left, fits]

omit [DecidableEq F] in
theorem scan_none {state : F → FiberState} {worker : W}
    {fibers : List (FiberAndThread W F C)}
    (found : scan state worker fibers = none) :
    ∀ it ∈ fibers, takable state worker it = false := by
  induction fibers with
  | nil => simp
  | cons it fibers ih =>
      rw [scan_cons] at found
      cases free : takable state worker it with
      | true => simp [free] at found
      | false =>
          rw [free] at found
          have rest := ih (Option.map_eq_none_iff.mp found)
          intro other member
          rcases List.mem_cons.mp member with rfl | member
          · exact free
          · exact rest other member

/-- The entry the step takes out of `m_fibers`, with its position. -/
def takenAt (s : State W F S C) : Action W F S C → Option Nat
  | .work worker =>
      match s.pc worker, scan s.state worker s.fibers with
      | .scan, some _ => some (s.fibers.findIdx (takable s.state worker))
      | _, _ => none
  | _ => none

omit [DecidableEq F] [DecidableEq S] in
theorem takenAt_elsewhere {s : State W F S C} {worker : W}
    (elsewhere : s.pc worker ≠ .scan) :
    takenAt s (.work worker) = none := by
  unfold takenAt
  cases pc : s.pc worker with
  | scan => exact absurd pc elsewhere
  | _ => simp [pc]

/-- What a step leaves in the queue. -/
def remaining (s : State W F S C) (action : Action W F S C) :
    List (FiberAndThread W F C) :=
  match takenAt s action with
  | none => s.fibers
  | some position => s.fibers.eraseIdx position

omit [DecidableEq S] in
theorem work_fibers {s next : State W F S C} {worker : W}
    (taken : Scheduler.work s worker = some next) :
    next.fibers = remaining s (.work worker) ++
      pushes (S := S) s (.work worker) := by
  unfold Scheduler.work at taken
  cases pc : s.pc worker with
  | scan =>
      simp only [pc] at taken
      split at taken <;> cases taken
      · rename_i nothing
        simp [remaining, takenAt, pushes, pc, nothing, State.goto]
      · rename_i ft rest found
        simp [remaining, takenAt, pushes, pc, found, State.goto,
          (scan_some found).2.1]
  | requeue job =>
      simp only [pc] at taken
      cases origin : job.origin with
      | entry thread =>
          rw [origin] at taken
          cases taken
          simp [remaining, takenAt, pushes, pc, State.goto, State.schedule,
            origin, Origin.thread]
      | callback =>
          rw [origin] at taken
          cases taken
          simp [remaining, takenAt, pushes, pc, State.goto, State.schedule,
            State.setCbFiber, origin, Origin.thread]
  | _ =>
      simp only [pc] at taken
      repeat' split at taken
      all_goals cases taken
      all_goals simp [remaining, takenAt, pushes, pc, State.goto,
        State.setState, State.setCbFiber]

theorem step_fibers {s next : State W F S C} {action : Action W F S C}
    (taken : Scheduler.step s action = some next) :
    next.fibers = remaining s action ++ pushes s action := by
  cases action with
  | work worker => exact work_fibers taken
  | construct worker fresh =>
      simp only [Scheduler.step, construct] at taken
      repeat' split at taken
      all_goals cases taken
      simp [remaining, takenAt, pushes, State.goto, State.setState,
        State.setCbFiber]
  | run worker op =>
      simp only [Scheduler.step, run] at taken
      split at taken
      · rename_i job pc
        cases op <;> simp only at taken
        all_goals repeat' split at taken
        all_goals cases taken
        all_goals simp_all [remaining, takenAt, pushes, State.goto,
          State.schedule]
      · cases taken
  | call request =>
      simp only [Scheduler.step, call] at taken
      repeat' split at taken
      all_goals cases taken
      all_goals simp_all [remaining, takenAt, pushes, State.schedule]

/-! `m_activeThreadCount` counts the workers from the scan that takes an entry
to the update of the counter. -/

/-- The worker has taken an entry, and has neither returned from `swapIn` and
lowered `m_activeThreadCount` nor dropped the entry. -/
def Pc.active : Pc W F C → Bool
  | .took _ => true
  | .swapIn _ => true
  | .mark _ => true
  | .enter _ => true
  | .body _ => true
  | .leave _ _ => true
  | .swapOut _ => true
  | .landed _ => true
  | .returned _ => true
  | _ => false

/-- Between the two updates of `m_idleThreadCount`. -/
def Pc.idling : Pc W F C → Bool
  | .idleIn => true
  | .idle => true
  | .idleOut => true
  | _ => false

omit [DecidableEq W] [DecidableEq F] in
theorem Pc.not_active_of_idling {pc : Pc W F C} (idling : pc.idling = true) :
    pc.active = false := by
  cases pc <;> first
    | rfl
    | cases idling

def Counted [Fintype W] (s : State W F S C) : Prop :=
  s.activeThreadCount = tally fun worker => (s.pc worker).active

omit [DecidableEq W] [DecidableEq F] [DecidableEq S] in
theorem Counted.positive [Fintype W] {s : State W F S C} (counted : Counted s)
    {worker : W} (active : (s.pc worker).active = true) :
    0 < s.activeThreadCount := by
  rw [counted]
  exact tally_pos (fun worker => (s.pc worker).active) active

omit [DecidableEq F] [DecidableEq S] in
theorem Counted.move [Fintype W] {s next : State W F S C} (counted : Counted s)
    (worker : W)
    (others : ∀ other, other ≠ worker → next.pc other = s.pc other)
    (count : next.activeThreadCount + (s.pc worker).active.toNat =
      s.activeThreadCount + (next.pc worker).active.toNat) : Counted next := by
  have moved := @tally_of_ne W _ _ (fun worker => (s.pc worker).active)
    (fun worker => (next.pc worker).active) worker
    fun other different => by rw [others other different]
  unfold Counted at counted ⊢
  omega

omit [DecidableEq S] in
theorem work_active {s next : State W F S C} {worker : W}
    (positive : (s.pc worker).active = true → 0 < s.activeThreadCount)
    (taken : Scheduler.work s worker = some next) :
    next.activeThreadCount + (s.pc worker).active.toNat =
      s.activeThreadCount + (next.pc worker).active.toNat := by
  unfold Scheduler.work at taken
  cases pc : s.pc worker <;> rw [pc] at positive <;>
    simp only [pc] at taken <;> repeat' split at taken
  all_goals cases taken
  all_goals simp [State.goto, State.setState, State.setCbFiber, State.schedule,
    Pc.active] at positive ⊢
  all_goals omega

omit [DecidableEq S] in
/-- What the construction of a `cb_fiber` does. -/
theorem construct_cases {s next : State W F S C} {worker : W} {fresh : F}
    (taken : construct s worker fresh = some next) :
    (∃ callback thread, s.pc worker = .took ⟨.cb callback, thread⟩) ∧
      next.pc = Function.update s.pc worker (.swapIn ⟨fresh, .callback⟩) ∧
      next.state = Function.update s.state fresh .INIT ∧
      next.idleFiber = s.idleFiber ∧ next.fibers = s.fibers ∧
      next.activeThreadCount = s.activeThreadCount := by
  unfold construct at taken
  split at taken
  · split at taken <;> cases taken
    rename_i pc _ _
    exact ⟨⟨_, _, pc⟩, rfl, rfl, rfl, rfl, rfl⟩
  · cases taken

omit [DecidableEq F] in
/-- What the code of a fiber does to the worker that runs it. -/
theorem run_cases {s next : State W F S C} {worker : W} {op : Op W S}
    (taken : run s worker op = some next) :
    ∃ job, s.pc worker = .body job ∧
      (next.pc = s.pc ∨ ∃ state,
        next.pc = Function.update s.pc worker (.leave job state) ∧
          state ≠ .EXEC ∧ state ≠ .INIT) ∧
      next.state = s.state ∧ next.idleFiber = s.idleFiber ∧
      next.activeThreadCount = s.activeThreadCount := by
  simp only [run] at taken
  split at taken
  · rename_i job pc
    refine ⟨job, pc, ?_⟩
    repeat' split at taken
    all_goals cases taken
    all_goals first
      | exact ⟨.inl rfl, rfl, rfl, rfl⟩
      | exact ⟨.inr ⟨_, rfl, by decide, by decide⟩, rfl, rfl, rfl⟩
  · cases taken

omit [DecidableEq W] in
theorem call_cases {s next : State W F S C} {request : Call W F S C}
    (taken : call s request = some next) :
    next.pc = s.pc ∧ next.state = s.state ∧ next.idleFiber = s.idleFiber ∧
      next.activeThreadCount = s.activeThreadCount := by
  simp only [call] at taken
  repeat' split at taken
  all_goals cases taken
  all_goals exact ⟨rfl, rfl, rfl, rfl⟩

theorem counted_step [Fintype W] {s next : State W F S C}
    {action : Action W F S C} (counted : Counted s)
    (taken : Scheduler.step s action = some next) : Counted next := by
  cases action with
  | work worker =>
      exact counted.move worker
        (fun other different => (work_other taken different).1)
        (work_active counted.positive taken)
  | construct worker fresh =>
      obtain ⟨⟨callback, thread, before⟩, pc, -, -, -, count⟩ :=
        construct_cases taken
      apply counted.move worker
      · intro other different
        rw [pc, Function.update_of_ne different]
      · rw [pc, before, Function.update_self, count]
        rfl
  | run worker op =>
      obtain ⟨job, before, after, -, -, count⟩ := run_cases taken
      rcases after with pc | ⟨state, pc, -⟩
      · apply counted.move worker
        · intro other different
          rw [pc]
        · rw [pc, count]
      · apply counted.move worker
        · intro other different
          rw [pc, Function.update_of_ne different]
        · rw [pc, before, Function.update_self, count]
          rfl
  | call request =>
      obtain ⟨pc, -, -, count⟩ := call_cases taken
      rw [Counted, count, counted, pc]

end Sylar.Scheduler
