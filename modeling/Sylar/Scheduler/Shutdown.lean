import Sylar.Scheduler.Conservation

namespace Sylar.Scheduler

open Logic

/-! What is left when every worker has left `run()`. A worker leaves after a
scan that took nothing and a look at its idle fiber, so what matters is whether
some worker has still to scan when an entry is pushed. -/

variable {W F S C : Type} [DecidableEq W] [DecidableEq F] [DecidableEq S]

/-- The worker scans no more: its last scan took nothing, and its idle fiber has
ended. -/
def State.late (s : State W F S C) (worker : W) : Bool :=
  match s.pc worker with
  | .empty => s.idleFiber worker == .TERM
  | .exited => true
  | _ => false

namespace Pc

/-- The thread id of the entry a worker has taken. -/
def thread? : Pc W F C → Option W
  | .took ft => ft.thread
  | .swapIn job => job.origin.thread
  | .mark job => job.origin.thread
  | .enter job => job.origin.thread
  | .body job => job.origin.thread
  | .leave job _ => job.origin.thread
  | .swapOut job => job.origin.thread
  | .landed job => job.origin.thread
  | .returned job => job.origin.thread
  | .testReady job => job.origin.thread
  | .testEnded job => job.origin.thread
  | .requeue job => job.origin.thread
  | _ => none

/-- The fiber that is `EXEC` because of this worker. -/
def executes : Pc W F C → Option F
  | .enter job => some job.fiber
  | .body job => some job.fiber
  | .leave job _ => some job.fiber
  | _ => none

/-- In the code of a task or of the idle fiber. -/
def inFiber : Pc W F C → Bool
  | .body _ => true
  | .idle => true
  | _ => false

end Pc

/-! No entry has a thread id while none is pushed with one. -/

structure Unpinned (s : State W F S C) : Prop where
  queued : ∀ it ∈ s.fibers, it.thread = none
  taken : ∀ worker, (s.pc worker).thread? = none

theorem mem_step_fibers {s next : State W F S C} {action : Action W F S C}
    {it : FiberAndThread W F C}
    (taken : Scheduler.step s action = some next) (member : it ∈ next.fibers) :
    it ∈ s.fibers ∨ it ∈ pushes s action := by
  rw [step_fibers taken] at member
  rcases List.mem_append.mp member with before | added
  · left
    unfold remaining at before
    split at before
    · exact before
    · exact List.mem_of_mem_eraseIdx before
  · exact .inr added

omit [DecidableEq S] in
theorem Unpinned.work_thread {s next : State W F S C} {worker : W}
    (unpinned : Unpinned s) (taken : Scheduler.work s worker = some next) :
    (next.pc worker).thread? = none := by
  have own := unpinned.taken worker
  unfold Scheduler.work at taken
  cases pc : s.pc worker with
  | scan =>
      simp only [pc] at taken
      split at taken <;> cases taken
      · simp [State.goto, Pc.thread?]
      · rename_i found
        simpa [State.goto, Pc.thread?] using
          unpinned.queued _ (scan_mem found).1
  | _ =>
      rw [pc] at own
      simp only [pc] at taken
      repeat' split at taken
      all_goals cases taken
      all_goals simp_all [State.goto, State.setState, State.setCbFiber,
        State.schedule, Pc.thread?, Origin.thread]

theorem Unpinned.step {s next : State W F S C} {action : Action W F S C}
    (unpinned : Unpinned s)
    (pushed : ∀ it ∈ pushes s action, it.thread = none)
    (taken : Scheduler.step s action = some next) : Unpinned next := by
  refine ⟨?_, ?_⟩
  · intro it member
    rcases mem_step_fibers taken member with before | added
    · exact unpinned.queued it before
    · exact pushed it added
  · intro other
    have before := unpinned.taken other
    cases action with
    | work worker =>
        rcases eq_or_ne other worker with rfl | different
        · exact unpinned.work_thread taken
        · rwa [(work_other taken different).1]
    | construct worker fresh =>
        obtain ⟨-, pc, -⟩ := construct_cases taken
        rw [pc]
        rcases eq_or_ne other worker with rfl | different
        · rw [Function.update_self]
          rfl
        · rwa [Function.update_of_ne different]
    | run worker op =>
        obtain ⟨job, place, after, -⟩ := run_cases taken
        rcases after with pc | ⟨state, pc, -⟩
        · rwa [pc]
        · rw [pc]
          rcases eq_or_ne other worker with rfl | different
          · rw [Function.update_self]
            rw [place] at before
            exact before
          · rwa [Function.update_of_ne different]
    | call request => rwa [(call_cases taken).1]

/-! A fiber that is `EXEC` is executed by a worker. -/

structure Executed (s : State W F S C) : Prop where
  worker : ∀ fiber, s.state fiber = .EXEC →
    ∃ worker, (s.pc worker).executes = some fiber
  leaves : ∀ worker job state, s.pc worker = .leave job state →
    state ≠ .EXEC

theorem executing_before {state : F → FiberState} {own fiber : F}
    {value : FiberState}
    (executing : Function.update state own value fiber = .EXEC)
    (other : value ≠ .EXEC) : state fiber = .EXEC := by
  rcases eq_or_ne fiber own with rfl | different
  · rw [Function.update_self] at executing
    exact absurd executing other
  · rwa [Function.update_of_ne different] at executing

omit [DecidableEq W] [DecidableEq F] [DecidableEq S] in
/-- Only the given worker moved, and what it executed before is not `EXEC` unless
it still executes it. -/
theorem Executed.moved {s next : State W F S C} (executed : Executed s)
    (worker : W)
    (others : ∀ other, other ≠ worker → next.pc other = s.pc other)
    (leaves : ∀ job state, next.pc worker = .leave job state → state ≠ .EXEC)
    (state : ∀ fiber, next.state fiber = .EXEC →
      (next.pc worker).executes = some fiber ∨
        s.state fiber = .EXEC ∧ (s.pc worker).executes ≠ some fiber) :
    Executed next := by
  refine ⟨?_, ?_⟩
  · intro fiber executing
    rcases state fiber executing with here | ⟨before, elsewhere⟩
    · exact ⟨worker, here⟩
    · obtain ⟨other, inside⟩ := executed.worker fiber before
      have different : other ≠ worker := by
        rintro rfl
        exact elsewhere inside
      exact ⟨other, by rwa [others other different]⟩
  · intro other job value place
    rcases eq_or_ne other worker with rfl | different
    · exact leaves job value place
    · rw [others other different] at place
      exact executed.leaves other job value place

omit [DecidableEq S] in
theorem Executed.work {s next : State W F S C} {worker : W}
    (executed : Executed s) (taken : Scheduler.work s worker = some next) :
    Executed next := by
  apply executed.moved worker fun other different =>
    (work_other taken different).1
  · intro job state place
    unfold Scheduler.work at taken
    repeat' split at taken
    all_goals cases taken
    all_goals simp [State.goto] at place
  · intro fiber executing
    unfold Scheduler.work at taken
    cases pc : s.pc worker with
    | enter job =>
        simp only [pc] at taken
        cases taken
        rcases eq_or_ne job.fiber fiber with rfl | different
        · left
          simp [State.goto, Pc.executes]
        · right
          exact ⟨executing, by simpa [Pc.executes] using different⟩
    | mark job =>
        simp only [pc] at taken
        cases taken
        rcases eq_or_ne fiber job.fiber with rfl | different
        · left
          simp [State.goto, Pc.executes]
        · right
          simpa [State.goto, State.setState, Pc.executes, different]
            using executing
    | leave job state =>
        have other := executed.leaves worker job state pc
        simp only [pc] at taken
        split at taken <;> cases taken
        rcases eq_or_ne fiber job.fiber with rfl | different
        · simp [State.goto, State.setState, other] at executing
        · right
          refine ⟨by simpa [State.goto, State.setState, different]
            using executing, ?_⟩
          simpa [Pc.executes] using different.symm
    | body job =>
        simp only [pc] at taken
        cases taken
    | _ =>
        right
        refine ⟨?_, by simp [Pc.executes]⟩
        simp only [pc] at taken
        repeat' split at taken
        all_goals cases taken
        all_goals first
          | exact executing
          | exact executing_before executing (by decide)

theorem Executed.step {s next : State W F S C} {action : Action W F S C}
    (executed : Executed s) (taken : Scheduler.step s action = some next) :
    Executed next := by
  cases action with
  | work worker => exact executed.work taken
  | construct worker fresh =>
      obtain ⟨⟨callback, thread, before⟩, pc, state, -⟩ := construct_cases taken
      apply executed.moved worker
      · intro other different
        rw [pc, Function.update_of_ne different]
      · intro job state place
        rw [pc, Function.update_self] at place
        cases place
      · intro fiber executing
        right
        rw [state] at executing
        refine ⟨executing_before executing (by decide), ?_⟩
        rw [before]
        nofun
  | run worker op =>
      obtain ⟨job, before, after, state, -⟩ := run_cases taken
      rcases after with pc | ⟨left, pc, other, -⟩
      · refine ⟨?_, ?_⟩
        · rw [state, pc]
          exact executed.worker
        · rw [pc]
          exact executed.leaves
      · apply executed.moved worker
        · intro other different
          rw [pc, Function.update_of_ne different]
        · intro job state place
          rw [pc, Function.update_self] at place
          cases place
          exact other
        · intro fiber executing
          rw [state] at executing
          rw [pc, Function.update_self, before]
          rcases eq_or_ne job.fiber fiber with rfl | different
          · exact .inl rfl
          · exact .inr ⟨executing, by simpa [Pc.executes] using different⟩
  | call request =>
      obtain ⟨pc, state, -⟩ := call_cases taken
      refine ⟨?_, ?_⟩
      · rw [state, pc]
        exact executed.worker
      · rw [pc]
        exact executed.leaves

/-! The scan of the last worker that is not late takes nothing only if nothing
is queued: no fiber is `EXEC` then. -/

def Emptied (s : State W F S C) : Prop :=
  (∀ worker, s.late worker = true) → s.fibers = []

omit [DecidableEq W] [DecidableEq F] [DecidableEq S] in
theorem late_of_eq {s next : State W F S C} {worker : W}
    (pc : next.pc worker = s.pc worker)
    (idleFiber : next.idleFiber worker = s.idleFiber worker) :
    next.late worker = s.late worker := by
  rw [State.late, State.late, pc, idleFiber]

omit [DecidableEq S] in
theorem work_late {s next : State W F S C} {worker : W}
    (taken : Scheduler.work s worker = some next)
    (late : next.late worker = true) :
    next.fibers = s.fibers ∧ (s.late worker = true ∨
      s.pc worker = .scan ∧ scan s.state worker s.fibers = none) := by
  unfold Scheduler.work at taken
  cases pc : s.pc worker with
  | scan =>
      simp only [pc] at taken
      split at taken <;> cases taken
      · rename_i nothing
        exact ⟨rfl, .inr ⟨rfl, nothing⟩⟩
      · simp [State.late, State.goto] at late
  | empty =>
      simp only [pc] at taken
      split at taken <;> cases taken
      · rename_i ended
        refine ⟨rfl, .inl ?_⟩
        simp [State.late, pc, ended]
      · simp [State.late, State.goto] at late
  | _ =>
      simp only [pc] at taken
      repeat' split at taken
      all_goals cases taken
      all_goals simp [State.late, State.goto] at late

omit [DecidableEq F] [DecidableEq S] in
theorem not_takable {s : State W F S C} (unpinned : Unpinned s)
    {worker : W} {it : FiberAndThread W F C} (member : it ∈ s.fibers)
    (passed : takable s.state worker it = false) :
    ∃ fiber, s.state fiber = .EXEC := by
  obtain ⟨task, thread⟩ := it
  obtain rfl : thread = none := unpinned.queued _ member
  cases task with
  | fiber fiber => exact ⟨fiber, by simpa [takable] using passed⟩
  | cb callback => simp [takable] at passed

omit [DecidableEq W] [DecidableEq F] [DecidableEq S] in
theorem not_late_of_executes {s : State W F S C} {worker : W} {fiber : F}
    (inside : (s.pc worker).executes = some fiber) : s.late worker = false := by
  unfold State.late
  cases pc : s.pc worker <;> rw [pc] at inside <;> first
    | rfl
    | cases inside

omit [DecidableEq S] in
theorem Emptied.work {s next : State W F S C} {worker : W}
    (emptied : Emptied s) (unpinned : Unpinned s) (executed : Executed s)
    (taken : Scheduler.work s worker = some next) : Emptied next := by
  intro late
  have others : ∀ other, other ≠ worker → s.late other = true := by
    intro other different
    rw [← late_of_eq (work_other taken different).1
      (work_idleFiber taken different)]
    exact late other
  obtain ⟨fibers, before | ⟨pc, nothing⟩⟩ := work_late taken (late worker)
  · rw [fibers]
    apply emptied
    intro other
    rcases eq_or_ne other worker with rfl | different
    · exact before
    · exact others other different
  · rw [fibers, List.eq_nil_iff_forall_not_mem]
    intro it member
    obtain ⟨fiber, executing⟩ :=
      not_takable unpinned member (scan_none nothing it member)
    obtain ⟨other, inside⟩ := executed.worker fiber executing
    have different : other ≠ worker := by
      rintro rfl
      rw [pc] at inside
      cases inside
    have finished := others other different
    rw [not_late_of_executes inside] at finished
    cases finished

namespace Accounts

/-- Some worker is in `run()` and has still to scan. -/
def Open (a : Accounts W F S C) : Prop :=
  ∃ worker, a.scheduler.late worker = false

/-- No worker has left `run()`, or the caller is a worker in the code of a task
or of its idle fiber. -/
def Inside (a : Accounts W F S C) : Prop :=
  (∀ worker, a.scheduler.pc worker ≠ .exited) ∨
    ∃ worker, (a.scheduler.pc worker).inFiber = true

/-- Entries are pushed without a thread id, and by calls only under the
condition. -/
def Pushes (condition : Prop) (a : Accounts W F S C) :
    Request W F S C → Prop
  | .act (.call (.schedule _ thread)) => thread = none ∧ condition
  | .act (.call (.notify semaphore)) =>
      (a.scheduler.semaphore semaphore).waiters = [] ∨ condition
  | .act (.run worker (.switchTo thread)) =>
      thread = none ∨ thread = some worker
  | .batch tasks => tasks.all Option.isNone = true ∨ condition
  | _ => True

/-- Calls schedule while some worker has still to scan. -/
def Timely (a : Accounts W F S C) (request : Request W F S C) : Prop :=
  a.Pushes a.Open request

/-- Calls schedule before the first worker leaves `run()`, or from inside. -/
def Early (a : Accounts W F S C) (request : Request W F S C) : Prop :=
  a.Pushes a.Inside request

instance [Fintype W] (a : Accounts W F S C) : Decidable a.Open :=
  inferInstanceAs (Decidable (∃ worker, a.scheduler.late worker = false))

instance [Fintype W] [DecidableEq C] (a : Accounts W F S C) :
    Decidable a.Inside :=
  inferInstanceAs (Decidable ((∀ worker, a.scheduler.pc worker ≠ .exited) ∨
    ∃ worker, (a.scheduler.pc worker).inFiber = true))

instance (condition : Prop) [Decidable condition] (a : Accounts W F S C) :
    (request : Request W F S C) → Decidable (a.Pushes condition request)
  | .act (.work _) => inferInstanceAs (Decidable True)
  | .act (.construct _ _) => inferInstanceAs (Decidable True)
  | .act (.run _ (.wait _)) => inferInstanceAs (Decidable True)
  | .act (.run worker (.switchTo thread)) =>
      inferInstanceAs (Decidable (thread = none ∨ thread = some worker))
  | .act (.run _ .yieldToHold) => inferInstanceAs (Decidable True)
  | .act (.run _ .yieldToReady) => inferInstanceAs (Decidable True)
  | .act (.run _ .finish) => inferInstanceAs (Decidable True)
  | .act (.run _ .throw) => inferInstanceAs (Decidable True)
  | .act (.call (.create _)) => inferInstanceAs (Decidable True)
  | .act (.call (.schedule _ thread)) =>
      inferInstanceAs (Decidable (thread = none ∧ condition))
  | .act (.call (.notify semaphore)) =>
      inferInstanceAs (Decidable
        ((a.scheduler.semaphore semaphore).waiters = [] ∨ condition))
  | .act (.call .stop) => inferInstanceAs (Decidable True)
  | .batch tasks =>
      inferInstanceAs (Decidable (tasks.all Option.isNone = true ∨ condition))

instance [Fintype W] (a : Accounts W F S C) (request : Request W F S C) :
    Decidable (a.Timely request) :=
  inferInstanceAs (Decidable (a.Pushes a.Open request))

instance [Fintype W] [DecidableEq C] (a : Accounts W F S C)
    (request : Request W F S C) : Decidable (a.Early request) :=
  inferInstanceAs (Decidable (a.Pushes a.Inside request))

omit [DecidableEq F] [DecidableEq S] in
theorem Pushes.unpinned {condition : Prop} {a : Accounts W F S C}
    {action : Action W F S C} (allowed : a.Pushes condition (.act action))
    (unpinned : Unpinned a.scheduler) :
    ∀ it ∈ pushes a.scheduler action, it.thread = none := by
  intro it member
  cases action with
  | work worker =>
      have own := unpinned.taken worker
      unfold pushes at member
      simp only at member
      split at member
      · rename_i job pc
        rw [pc] at own
        obtain rfl := List.mem_singleton.mp member
        exact own
      · cases member
  | construct worker fresh => cases member
  | run worker op =>
      unfold pushes at member
      simp only at member
      split at member
      · split at member
        · cases member
        · rename_i elsewhere
          exact absurd (show _ ∨ _ from allowed) elsewhere
      · cases member
  | call request =>
      cases request with
      | create fresh => cases member
      | schedule task thread =>
          obtain rfl := List.mem_singleton.mp member
          exact allowed.1
      | notify semaphore =>
          unfold pushes at member
          simp only at member
          split at member
          · cases member
          · obtain rfl := List.mem_singleton.mp member
            rfl
      | stop => cases member

structure Closing (a : Accounts W F S C) : Prop where
  unpinned : Unpinned a.scheduler
  executed : Executed a.scheduler
  emptied : Emptied a.scheduler

omit [DecidableEq W] [DecidableEq F] [DecidableEq S] in
/-- While some worker has still to scan, pushed entries do no harm. -/
theorem emptied_of_pushed {s next : State W F S C}
    {added : List (FiberAndThread W F C)} (emptied : Emptied s)
    (pc : next.pc = s.pc) (idleFiber : next.idleFiber = s.idleFiber)
    (fibers : next.fibers = s.fibers ++ added)
    (timely : added = [] ∨ ∃ worker, s.late worker = false) : Emptied next := by
  intro late
  have before : ∀ worker, s.late worker = true := by
    intro worker
    rw [← late_of_eq (congrFun pc worker) (congrFun idleFiber worker)]
    exact late worker
  rcases timely with rfl | ⟨worker, scans⟩
  · rw [fibers, List.append_nil]
    exact emptied before
  · rw [before worker] at scans
    cases scans

theorem closing_act {a : Accounts W F S C} {next : State W F S C}
    {action : Action W F S C} (closing : a.Closing)
    (timely : a.Timely (.act action))
    (taken : Scheduler.step a.scheduler action = some next) : Emptied next := by
  have fibers := step_fibers taken
  cases action with
  | work worker =>
      exact closing.emptied.work closing.unpinned closing.executed taken
  | construct worker fresh =>
      obtain ⟨-, pc, -⟩ := construct_cases taken
      intro late
      have scans := late worker
      rw [State.late, pc, Function.update_self] at scans
      cases scans
  | run worker op =>
      obtain ⟨job, before, after, -, idleFiber, -⟩ := run_cases taken
      intro late
      have scans := late worker
      rcases after with pc | ⟨state, pc, -⟩
      · rw [State.late, pc, before] at scans
        cases scans
      · rw [State.late, pc, Function.update_self] at scans
        cases scans
  | call request =>
      obtain ⟨pc, -, idleFiber, -⟩ := call_cases taken
      apply emptied_of_pushed closing.emptied pc idleFiber fibers
      cases request with
      | create fresh => exact .inl rfl
      | schedule task thread => exact .inr timely.2
      | notify semaphore =>
          rcases timely with nobody | scans
          · left
            simp [pushes, nobody]
          · exact .inr scans
      | stop => exact .inl rfl

theorem closing_step {a next : Accounts W F S C} {request : Request W F S C}
    (closing : a.Closing) (timely : a.Timely request)
    (taken : a.step request = some next) : next.Closing := by
  cases request with
  | act action =>
      obtain ⟨scheduler, moved, rfl⟩ := Option.map_eq_some_iff.mp taken
      exact {
        unpinned := closing.unpinned.step
          (timely.unpinned closing.unpinned) moved
        executed := closing.executed.step moved
        emptied := closing_act closing timely moved }
  | batch tasks =>
      simp only [step] at taken
      split at taken <;> cases taken
      refine ⟨⟨?_, closing.unpinned.taken⟩, ⟨closing.executed.worker,
        closing.executed.leaves⟩, ?_⟩
      · intro it member
        rcases List.mem_append.mp member with before | added
        · exact closing.unpinned.queued it before
        · obtain ⟨task, -, made⟩ := List.mem_filterMap.mp added
          obtain ⟨task, -, rfl⟩ := Option.map_eq_some_iff.mp made
          rfl
      · refine emptied_of_pushed closing.emptied rfl rfl rfl ?_
        rcases timely with empty | scans
        · left
          apply List.filterMap_eq_nil_iff.mpr
          intro task member
          rw [Option.isNone_iff_eq_none.mp (List.all_eq_true.mp empty task member)]
          rfl
        · exact .inr scans

omit [DecidableEq W] [DecidableEq F] [DecidableEq S] in
theorem Opened.closing {a : Accounts W F S C} (opened : a.Opened) :
    a.Closing where
  unpinned := by
    refine ⟨?_, ?_⟩
    · rw [opened.scheduler.fibers]
      nofun
    · intro worker
      rw [opened.scheduler.pc]
      rfl
  executed := by
    refine ⟨?_, ?_⟩
    · intro fiber executing
      rw [opened.scheduler.state] at executing
      cases executing
    · intro worker job state place
      rw [opened.scheduler.pc] at place
      cases place
  emptied := fun _ => opened.scheduler.fibers

theorem closing_run {a : Accounts W F S C}
    (reached : Reach Opened (StepWhen step Timely) a) : a.Closing :=
  @Reach.invariant _ _ _ _ Closing (fun _ opened => opened.closing)
    (fun _ _ _ closing taken => closing_step closing taken.1 taken.2) _ reached

/-- When every worker has left `run()`, nothing is queued, and the worker that
took an entry has resumed its fiber or found it ended. -/
theorem shutdown_strands_nothing {a : Accounts W F S C}
    (reached : Reach Opened (StepWhen step Timely) a)
    (left : ∀ worker, a.scheduler.pc worker = .exited) :
    a.scheduler.fibers = [] ∧
      ∀ record ∈ a.ledger.taken, ∃ outcome,
        (record.1.place, record.2.worker, outcome) ∈ a.outcomes ∧
        outcome.Settles record.1.value.task := by
  constructor
  · apply (closing_run reached).emptied
    intro worker
    rw [State.late, left]
  · intro record member
    rcases (sound_run reached.all).tracked record member with ⟨-, pending⟩ | done
    · rw [left] at pending
      exact pending.elim
    · exact done

/-- From the scan before the idle fiber to the last scan. -/
def windDown (worker : Bool) : List (Request Bool Nat Unit Unit) :=
  List.replicate 7 (.act (.work worker))

/-- A callback yields to `READY` and finishes while the other worker leaves. -/
theorem shutdown_strands_nothing_ready :
    ∃ a : Accounts Bool Nat Unit Unit,
      (∀ worker, a.scheduler.pc worker = .exited) ∧
      a.ledger.taken.length = 2 ∧ a.scheduler.fibers = [] ∧
      ∀ record ∈ a.ledger.taken, ∃ outcome,
        (record.1.place, record.2.worker, outcome) ∈ a.outcomes ∧
        outcome.Settles record.1.value.task := by
  obtain ⟨a, ran, left, taken⟩ : ∃ a, exec (guarded step Timely) opening
      ([.act (.call (.schedule (.cb ()) none)), .act (.work false),
        .act (.construct false 0), .act (.work false), .act (.work false),
        .act (.work false), .act (.call .stop),
        .act (.run false .yieldToReady), .act (.work false),
        .act (.work false), .act (.work false), .act (.work false)] ++
        windDown true ++ [.act (.work true)] ++
        [.act (.work false), .act (.work false), .act (.work false),
        .act (.work false), .act (.work false), .act (.work false),
        .act (.work false), .act (.run false .finish), .act (.work false),
        .act (.work false), .act (.work false), .act (.work false),
        .act (.work false), .act (.work false)] ++ windDown false ++
        [.act (.work false)]) = some a ∧
      (∀ worker, a.scheduler.pc worker = .exited) ∧
      a.ledger.taken.length = 2 := ⟨_, rfl, by decide, rfl⟩
  obtain ⟨empty, done⟩ := shutdown_strands_nothing
    (reach_guarded (.start _ opening_opened) ran) left
  exact ⟨a, left, taken, empty, done⟩

/-- Both workers have made their last scan and none has left `run()` when the
callback is scheduled: it stays in the queue. -/
theorem shutdown_strands_late :
    ∃ a : Accounts Bool Nat Unit Unit,
      Reach Opened (StepWhen step Early) a ∧
      (∀ worker, a.scheduler.pc worker = .exited) ∧
      a.scheduler.fibers ≠ [] := by
  obtain ⟨a, ran, left, queued⟩ : ∃ a, exec (guarded step Early) opening
      ([.act (.call .stop)] ++ windDown true ++ windDown false ++
        [.act (.call (.schedule (.cb ()) none)), .act (.work true),
          .act (.work false)]) = some a ∧
      (∀ worker, a.scheduler.pc worker = .exited) ∧
      a.scheduler.fibers = [⟨.cb (), none⟩] := ⟨_, rfl, by decide, rfl⟩
  refine ⟨a, reach_guarded (.start _ opening_opened) ran, left, ?_⟩
  rw [queued]
  nofun

end Accounts

end Sylar.Scheduler
