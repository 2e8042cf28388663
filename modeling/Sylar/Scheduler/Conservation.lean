import Sylar.Scheduler.Ledger

namespace Sylar.Scheduler

open Logic

/-! No entry of `m_fibers` is lost or taken twice, and `m_activeThreadCount` is
exact, whatever the workers and the callers of `schedule` do. -/

variable {W F S C : Type} [DecidableEq W] [DecidableEq F] [DecidableEq S]

/-- The scheduler when its workers enter `run()`. -/
structure Started (s : State W F S C) : Prop extends Initial s where
  state : ∀ fiber, s.state fiber = .INIT
  idleFiber : ∀ worker, s.idleFiber worker = .INIT
  activeThreadCount : s.activeThreadCount = 0
  idleThreadCount : s.idleThreadCount = 0

structure Accounts.Opened (a : Accounts W F S C) : Prop where
  scheduler : Started a.scheduler
  ledger : a.ledger = Ledger.empty
  held : ∀ worker, a.held worker = none
  outcomes : a.outcomes = []

/-- The worker has taken an entry with this task, and comes to the jump into the
fiber of the task or to the test that drops it. -/
def Pc.Pending (task : Task F C) : Pc W F C → Prop
  | .took ft => ft.task = task
  | .swapIn job => ∀ own, task = .fiber own → job.fiber = own
  | .mark job => ∀ own, task = .fiber own → job.fiber = own
  | .enter job => ∀ own, task = .fiber own → job.fiber = own
  | _ => False

namespace Accounts

/-- An entry taken is still held by its taker, or the taker is done with it. -/
def Tracked (a : Accounts W F S C) : Prop :=
  ∀ record ∈ a.ledger.taken,
    (a.held record.2.worker = some record.1.place ∧
      (a.scheduler.pc record.2.worker).Pending record.1.value.task) ∨
    ∃ outcome, (record.1.place, record.2.worker, outcome) ∈ a.outcomes ∧
      outcome.Settles record.1.value.task

structure Sound (a : Accounts W F S C) : Prop where
  queue : a.ledger.queue = a.scheduler.fibers
  fits : ∀ record ∈ a.ledger.taken,
    (record.1.value.thread = none ∨
      record.1.value.thread = some record.2.worker) ∧
    record.2.state ≠ some .EXEC
  tracked : a.Tracked

omit [DecidableEq F] [DecidableEq S] in
/-- What a worker's scan takes is what the ledger notes. -/
theorem take_scanned {a : Accounts W F S C} (queue : a.ledger.queue = a.scheduler.fibers)
    {worker : W} {ft : FiberAndThread W F C} {rest : List (FiberAndThread W F C)}
    (found : scan a.scheduler.state worker a.scheduler.fibers = some (ft, rest)) :
    ∃ place,
      (a.take worker (a.scheduler.fibers.findIdx
        (takable a.scheduler.state worker))).ledger.taken =
          a.ledger.taken ++ [(⟨place, ft⟩, ⟨worker, a.scheduler.entryState ft⟩)] ∧
      (a.take worker (a.scheduler.fibers.findIdx
        (takable a.scheduler.state worker))).ledger.queue = rest ∧
      (a.take worker (a.scheduler.fibers.findIdx
        (takable a.scheduler.state worker))).held =
          Function.update a.held worker (some place) := by
  obtain ⟨here, left, -⟩ := scan_some found
  generalize a.scheduler.fibers.findIdx (takable a.scheduler.state worker) =
    position at here left ⊢
  rw [← queue, Ledger.queue, List.getElem?_map] at here
  obtain ⟨entry, at_position, rfl⟩ := Option.map_eq_some_iff.mp here
  obtain ⟨inside, rfl⟩ := List.getElem?_eq_some_iff.mp at_position
  refine ⟨(a.ledger.waiting[position]).place, ?_, ?_, ?_⟩
  · simp [take, inside, Ledger.take]
  · simp [take, inside, queue, left]
  · simp [take, inside]

omit [DecidableEq F] [DecidableEq S] in
theorem take_nothing {a : Accounts W F S C} (queue : a.ledger.queue = a.scheduler.fibers)
    {worker : W}
    (found : scan a.scheduler.state worker a.scheduler.fibers = none) :
    a.take worker (a.scheduler.fibers.findIdx
      (takable a.scheduler.state worker)) = a := by
  have outside := List.findIdx_eq_length.mpr (scan_none found)
  rw [outside, ← queue, Ledger.length_queue]
  simp [take]

omit [DecidableEq F] [DecidableEq S] in
@[simp] theorem settle_ledger (a : Accounts W F S C) (worker : W)
    (outcome : Outcome F) : (a.settle worker outcome).ledger = a.ledger := by
  unfold settle
  split <;> rfl

omit [DecidableEq W] [DecidableEq F] [DecidableEq S] in
theorem Tracked.pushed {a : Accounts W F S C} (tracked : a.Tracked)
    (values : List (FiberAndThread W F C)) :
    Tracked { a with ledger := a.ledger.pushAll values } := by
  intro record member
  exact tracked record (by simpa using member)

omit [DecidableEq W] [DecidableEq F] [DecidableEq S] in
theorem Tracked.moved {a : Accounts W F S C} (tracked : a.Tracked)
    {next : State W F S C}
    (pending : ∀ worker task, (a.scheduler.pc worker).Pending task →
      (next.pc worker).Pending task) :
    Tracked { a with scheduler := next } := by
  intro record member
  rcases tracked record member with ⟨held, before⟩ | done
  · exact .inl ⟨held, pending _ _ before⟩
  · exact .inr done

omit [DecidableEq F] [DecidableEq S] in
theorem Tracked.settled {a : Accounts W F S C} (tracked : a.Tracked)
    {next : State W F S C} {worker : W} {outcome : Outcome F}
    (others : ∀ other, other ≠ worker →
      next.pc other = a.scheduler.pc other)
    (settles : ∀ task : Task F C, (a.scheduler.pc worker).Pending task →
      outcome.Settles task) :
    Tracked { a.settle worker outcome with scheduler := next } := by
  intro record member
  simp only [settle_ledger] at member
  unfold settle
  rcases eq_or_ne record.2.worker worker with same | different
  · rcases tracked record member with ⟨held, before⟩ | ⟨finish, noted, fits⟩
    · rw [same] at held before
      refine .inr ⟨outcome, ?_, settles _ before⟩
      rw [held, same]
      exact List.mem_append_right _ (List.mem_singleton_self _)
    · refine .inr ⟨finish, ?_, fits⟩
      split
      · exact noted
      · exact List.mem_append_left _ noted
  · rcases tracked record member with ⟨held, before⟩ | ⟨finish, noted, fits⟩
    · refine .inl ⟨?_, ?_⟩
      · split
        · exact held
        · simpa [different] using held
      · simpa [others _ different] using before
    · refine .inr ⟨finish, ?_, fits⟩
      split
      · exact noted
      · exact List.mem_append_left _ noted

omit [DecidableEq S] in
theorem Tracked.scanned {a : Accounts W F S C} (tracked : a.Tracked)
    (queue : a.ledger.queue = a.scheduler.fibers) {next : State W F S C}
    {worker : W} (pc : a.scheduler.pc worker = .scan)
    (taken : Scheduler.work a.scheduler worker = some next) :
    Tracked { a.work worker with scheduler := next } := by
  unfold Scheduler.work at taken
  rw [work, pc]
  simp only [pc] at taken
  split at taken <;> cases taken
  · rename_i nothing
    simp only [take_nothing queue nothing]
    apply tracked.moved
    intro other task pending
    rcases eq_or_ne other worker with rfl | different
    · rw [pc] at pending
      exact pending.elim
    · simpa [State.goto, different] using pending
  · rename_i ft rest found
    obtain ⟨place, noted, -, held⟩ := take_scanned queue found
    have outcomes : (a.take worker (a.scheduler.fibers.findIdx
        (takable a.scheduler.state worker))).outcomes = a.outcomes := by
      unfold take
      split <;> rfl
    intro record member
    rw [noted] at member
    simp only [held, outcomes, State.goto]
    rcases List.mem_append.mp member with before | added
    · rcases tracked record before with ⟨holds, pending⟩ | done
      · have different : record.2.worker ≠ worker := by
          intro same
          rw [same, pc] at pending
          exact pending
        left
        simpa [different] using And.intro holds pending
      · exact .inr done
    · obtain rfl := List.mem_singleton.mp added
      left
      simp [Pc.Pending]

omit [DecidableEq S] in
theorem Tracked.worked {a : Accounts W F S C} (tracked : a.Tracked)
    (queue : a.ledger.queue = a.scheduler.fibers) {next : State W F S C}
    {worker : W} (taken : Scheduler.work a.scheduler worker = some next) :
    Tracked { a.work worker with scheduler := next } := by
  have others : ∀ other, other ≠ worker →
      next.pc other = a.scheduler.pc other :=
    fun other different => (work_other taken different).1
  have stays : (∀ task : Task F C, (a.scheduler.pc worker).Pending task →
      (next.pc worker).Pending task) →
      Tracked { a with scheduler := next } := by
    intro here
    apply tracked.moved
    intro other task pending
    rcases eq_or_ne other worker with rfl | different
    · exact here task pending
    · rwa [others other different]
  cases pc : a.scheduler.pc worker with
  | scan => exact tracked.scanned queue pc taken
  | took ft =>
      obtain ⟨task, thread⟩ := ft
      cases task with
      | fiber fiber =>
          rw [work, pc]
          simp only
          split
          · rename_i ended
            apply tracked.settled others
            intro task pending
            rw [pc] at pending
            exact ⟨pending.symm, ended⟩
          · rename_i running
            apply stays
            rw [pc]
            rintro task rfl
            simp only [Scheduler.work, pc, if_neg running] at taken
            cases taken
            simp [State.goto, Pc.Pending]
      | cb callback =>
          rw [work, pc]
          apply stays
          rw [pc]
          rintro task rfl
          simp only [Scheduler.work, pc] at taken
          repeat' split at taken
          all_goals cases taken
          simp [State.goto, Pc.Pending]
  | enter job =>
      rw [work, pc]
      apply tracked.settled others
      intro task pending
      rw [pc] at pending
      exact pending
  | _ =>
      rw [work, pc]
      apply stays
      rw [pc]
      intro task pending
      first
        | exact pending.elim
        | simp only [Scheduler.work, pc] at taken
          repeat' split at taken
          all_goals cases taken
          simpa [State.goto, State.setState, Pc.Pending] using pending

theorem Tracked.step {a : Accounts W F S C} (tracked : a.Tracked)
    (queue : a.ledger.queue = a.scheduler.fibers) {next : State W F S C}
    {action : Action W F S C}
    (taken : Scheduler.step a.scheduler action = some next) :
    Tracked { a.act action with scheduler := next } := by
  cases action with
  | work worker => exact tracked.worked queue taken
  | construct worker fresh =>
      obtain ⟨⟨callback, thread, before⟩, pc, -⟩ := construct_cases taken
      apply tracked.moved
      intro other task pending
      rw [pc]
      rcases eq_or_ne other worker with rfl | different
      · rw [before] at pending
        obtain rfl : Task.cb callback = task := pending
        simp [Pc.Pending]
      · rwa [Function.update_of_ne different]
  | run worker op =>
      obtain ⟨job, before, after, -⟩ := run_cases taken
      apply tracked.moved
      intro other task pending
      rcases after with pc | ⟨state, pc, -⟩
      · rwa [pc]
      · rw [pc]
        rcases eq_or_ne other worker with rfl | different
        · rw [before] at pending
          exact pending.elim
        · rwa [Function.update_of_ne different]
  | call request =>
      apply tracked.moved
      intro other task pending
      rwa [(call_cases taken).1]

omit [DecidableEq F] [DecidableEq S] in
/-- A step of a worker that is not at its scan leaves the ledger alone. -/
theorem work_ledger {a : Accounts W F S C} {worker : W}
    (elsewhere : a.scheduler.pc worker ≠ .scan) :
    (a.work worker).ledger = a.ledger := by
  unfold work
  split
  · rename_i pc
    exact absurd pc elsewhere
  · split
    · exact settle_ledger _ _ _
    · rfl
  · exact settle_ledger _ _ _
  · rfl

omit [DecidableEq F] [DecidableEq S] in
theorem act_queue {a : Accounts W F S C}
    (queue : a.ledger.queue = a.scheduler.fibers) (action : Action W F S C) :
    (a.act action).ledger.queue = remaining a.scheduler action := by
  cases action with
  | work worker =>
      rcases eq_or_ne (a.scheduler.pc worker) .scan with pc | elsewhere
      · simp only [act, work, remaining, takenAt, pc]
        cases found : scan a.scheduler.state worker a.scheduler.fibers with
        | none =>
            rw [take_nothing queue found]
            exact queue
        | some result =>
            obtain ⟨ft, rest⟩ := result
            obtain ⟨place, -, left, -⟩ := take_scanned queue found
            rw [left]
            exact (scan_some found).2.1
      · rw [act, work_ledger elsewhere, remaining, takenAt_elsewhere elsewhere]
        exact queue
  | construct worker fresh => exact queue
  | run worker op => exact queue
  | call request => exact queue

omit [DecidableEq F] [DecidableEq S] in
theorem fits_act {a : Accounts W F S C} (sound : a.Sound)
    (action : Action W F S C) :
    ∀ record ∈ (a.act action).ledger.taken,
      (record.1.value.thread = none ∨
        record.1.value.thread = some record.2.worker) ∧
      record.2.state ≠ some .EXEC := by
  cases action with
  | work worker =>
      rcases eq_or_ne (a.scheduler.pc worker) .scan with pc | elsewhere
      · simp only [act, work, pc]
        cases found : scan a.scheduler.state worker a.scheduler.fibers with
        | none =>
            rw [take_nothing sound.queue found]
            exact sound.fits
        | some result =>
            obtain ⟨⟨task, thread⟩, rest⟩ := result
            obtain ⟨place, noted, -, -⟩ := take_scanned sound.queue found
            obtain ⟨-, -, free⟩ := scan_some found
            rw [noted]
            intro record member
            rcases List.mem_append.mp member with before | added
            · exact sound.fits record before
            · obtain rfl := List.mem_singleton.mp added
              simp only [takable, Bool.and_eq_true, decide_eq_true_eq] at free
              refine ⟨free.1, ?_⟩
              cases task with
              | fiber fiber => simpa [State.entryState] using free.2
              | cb callback => simp [State.entryState]
      · rw [act, work_ledger elsewhere]
        exact sound.fits
  | construct worker fresh => exact sound.fits
  | run worker op => exact sound.fits
  | call request => exact sound.fits

theorem sound_step {a next : Accounts W F S C} {request : Request W F S C}
    (sound : a.Sound) (taken : a.step request = some next) : next.Sound := by
  cases request with
  | act action =>
      obtain ⟨scheduler, moved, rfl⟩ := Option.map_eq_some_iff.mp taken
      refine ⟨?_, ?_, ?_⟩
      · rw [Ledger.queue_pushAll, act_queue sound.queue, step_fibers moved]
      · rw [Ledger.taken_pushAll]
        exact fits_act sound action
      · exact (sound.tracked.step sound.queue moved).pushed _
  | batch tasks =>
      simp only [step] at taken
      split at taken <;> cases taken
      refine ⟨?_, ?_, ?_⟩
      · rw [Ledger.queue_pushAll, sound.queue]
        rfl
      · rw [Ledger.taken_pushAll]
        exact sound.fits
      · exact (sound.tracked.moved (fun _ _ => id)).pushed _

theorem counted_step [Fintype W] {a next : Accounts W F S C}
    {request : Request W F S C} (counted : Counted a.scheduler)
    (taken : a.step request = some next) : Counted next.scheduler := by
  cases request with
  | act action =>
      obtain ⟨scheduler, moved, rfl⟩ := Option.map_eq_some_iff.mp taken
      exact Scheduler.counted_step counted moved
  | batch tasks =>
      simp only [step] at taken
      split at taken <;> cases taken
      exact counted

omit [DecidableEq W] [DecidableEq F] [DecidableEq S] in
theorem Opened.sound {a : Accounts W F S C} (opened : a.Opened) : a.Sound where
  queue := by
    rw [opened.ledger, opened.scheduler.fibers]
    rfl
  fits := by
    rw [opened.ledger]
    simp [Ledger.empty]
  tracked := by
    unfold Tracked
    rw [opened.ledger]
    simp [Ledger.empty]

omit [DecidableEq W] [DecidableEq F] [DecidableEq S] in
theorem Opened.counted [Fintype W] {a : Accounts W F S C} (opened : a.Opened) :
    Counted a.scheduler := by
  rw [Counted, opened.scheduler.activeThreadCount, eq_comm, tally_eq_zero]
  intro worker
  rw [opened.scheduler.pc]
  rfl

theorem sound_run {a : Accounts W F S C}
    (reached : Reach Opened (StepOf step) a) : a.Sound :=
  reached.invariant (fun _ opened => opened.sound)
    fun _ _ _ sound taken => sound_step sound taken

theorem counted_run [Fintype W] {a : Accounts W F S C}
    (reached : Reach Opened (StepOf step) a) : Counted a.scheduler :=
  reached.invariant (fun _ opened => opened.counted)
    fun _ _ _ counted taken => counted_step counted taken

/-- Every entry pushed is queued or was taken, once; the taker is the thread the
entry names, and its fiber was not executing; `m_activeThreadCount` is the
number of workers that have taken an entry and not lowered it again. A worker holds
the entry it has taken until it jumps into it or drops it. -/
theorem tasks_conserved [Fintype W] {a : Accounts W F S C}
    (reached : Reach Opened (StepOf step) a) :
    a.ledger.queue = a.scheduler.fibers ∧
    (∀ place, place < a.ledger.pushed.length →
      (a.ledger.waiting.map Entry.place).count place +
        (a.ledger.taken.map fun record => record.1.place).count place = 1) ∧
    (∀ record ∈ a.ledger.taken,
      a.ledger.pushed[record.1.place]? = some record.1.value ∧
      (record.1.value.thread = none ∨
        record.1.value.thread = some record.2.worker) ∧
      record.2.state ≠ some .EXEC) ∧
    a.scheduler.activeThreadCount =
      (Finset.univ.filter fun worker =>
        (a.scheduler.pc worker).active = true).card ∧
    (∀ worker, (a.scheduler.pc worker).active = true →
      0 < a.scheduler.activeThreadCount) ∧
    ((∀ worker, (a.scheduler.pc worker).idling = true) →
      a.scheduler.activeThreadCount = 0) ∧
    a.Tracked := by
  have sound := sound_run reached
  have counted := counted_run reached
  refine ⟨sound.queue, fun place => a.ledger.count_once, ?_, counted, ?_, ?_,
    sound.tracked⟩
  · intro record member
    exact ⟨a.ledger.takenPushed record member, sound.fits record member⟩
  · exact fun worker => counted.positive
  · intro idle
    rw [counted, tally_eq_zero]
    exact fun worker => Pc.not_active_of_idling (idle worker)

/-- Two workers and an empty ledger, before the first step. -/
def opening : Accounts Bool Nat Unit Unit where
  scheduler := fresh
  ledger := Ledger.empty
  held := fun _ => none
  outcomes := []

theorem opening_opened : opening.Opened where
  scheduler := {
    toInitial := fresh_initial
    state := fun _ => rfl
    idleFiber := fun _ => rfl
    activeThreadCount := rfl
    idleThreadCount := rfl }
  ledger := rfl
  held := fun _ => rfl
  outcomes := rfl

/-- A fiber for the first worker, then a batch with a null entry: the second
worker takes what the batch pushed. -/
theorem tasks_conserved_batch :
    ∃ a : Accounts Bool Nat Unit Unit,
      a.ledger.taken.map (fun record => (record.1.place, record.2.worker)) =
        [(1, true), (0, false)] ∧
      (∀ place, place < a.ledger.pushed.length →
        (a.ledger.waiting.map Entry.place).count place +
          (a.ledger.taken.map fun record => record.1.place).count place = 1) ∧
      a.scheduler.activeThreadCount =
        (Finset.univ.filter fun worker =>
          (a.scheduler.pc worker).active = true).card := by
  obtain ⟨a, ran, taken⟩ : ∃ a, exec step opening
      [.act (.call (.create 7)), .act (.call (.schedule (.fiber 7) (some false))),
        .batch [none, some (.cb ())], .act (.work true),
        .act (.work false)] = some a ∧
      a.ledger.taken.map (fun record => (record.1.place, record.2.worker)) =
        [(1, true), (0, false)] := ⟨_, rfl, rfl⟩
  obtain ⟨-, once, -, count, -⟩ :=
    tasks_conserved (reach_exec (.start opening opening_opened) ran)
  exact ⟨a, taken, once, count⟩

end Accounts

end Sylar.Scheduler
