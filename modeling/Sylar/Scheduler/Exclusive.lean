import Mathlib.Data.Fintype.Basic
import Sylar.Scheduler.Model

namespace Sylar.Scheduler

open Logic

/-! One worker at a time for each fiber. A worker handles a fiber from the
scan that takes it to the last access it makes after `swapIn` has returned.
The scan passes over a fiber only while it is `EXEC`, so it can take one that
another worker still handles; the runs in which it does not are exclusive. -/

variable {W F S C : Type}

namespace Pc

def fiber? : Pc W F C → Option F
  | .swapIn job => some job.fiber
  | .mark job => some job.fiber
  | .enter job => some job.fiber
  | .body job => some job.fiber
  | .leave job _ => some job.fiber
  | .swapOut job => some job.fiber
  | .landed job => some job.fiber
  | .returned job => some job.fiber
  | .testReady job => some job.fiber
  | .testEnded job => some job.fiber
  | .requeue job => some job.fiber
  | .hold job => some job.fiber
  | .retire job => some job.fiber
  | _ => none

/-- `swapIn` was called and has not returned. -/
def inSwapIn : Pc W F C → Option F
  | .swapIn job => some job.fiber
  | .mark job => some job.fiber
  | .enter job => some job.fiber
  | .body job => some job.fiber
  | .leave job _ => some job.fiber
  | .swapOut job => some job.fiber
  | .landed job => some job.fiber
  | _ => none

def executing : Pc W F C → Option F
  | .body job => some job.fiber
  | .leave job _ => some job.fiber
  | .swapOut job => some job.fiber
  | _ => none

end Pc

/-- The fiber a task runs in: its own, or the `cb_fiber` of the worker. -/
def Task.fiber? (cbFiber : Option F) : Task F C → Option F
  | .fiber own => some own
  | .cb _ => cbFiber

/-- The fiber handled by a worker that is at `pc` and has the given
`cb_fiber`. -/
def Pc.handled (cbFiber : Option F) : Pc W F C → Option F
  | .took ft => ft.task.fiber? cbFiber
  | pc => pc.fiber?

namespace State

def handled (s : State W F S C) (worker : W) : Option F :=
  (s.pc worker).handled (s.cbFiber worker)

/-- The fiber whose `m_state` the next step of the worker assigns, other than
by the code of the fiber itself. -/
def assigns (s : State W F S C) (worker : W) : Option F :=
  match s.pc worker with
  | .took ⟨.cb _, _⟩ => s.cbFiber worker
  | .mark job => some job.fiber
  | .hold job => some job.fiber
  | .retire job => some job.fiber
  | _ => none

/-- The fiber the scan of the worker is about to take. -/
def takes [DecidableEq W] (s : State W F S C) (worker : W) : Option F :=
  match s.pc worker with
  | .scan =>
      (scan s.state worker s.fibers).bind fun (ft, _) =>
        ft.task.fiber? (s.cbFiber worker)
  | _ => none

theorem handled_at {s : State W F S C} {worker : W} {pc : Pc W F C}
    (at_pc : s.pc worker = pc) :
    s.handled worker = pc.handled (s.cbFiber worker) := by
  rw [handled, at_pc]

theorem handled_of_inSwapIn {s : State W F S C} {worker : W} {fiber : F}
    (inside : (s.pc worker).inSwapIn = some fiber) :
    s.handled worker = some fiber := by
  unfold handled
  cases pc : s.pc worker <;> rw [pc] at inside <;> first
    | exact inside
    | cases inside

theorem handled_of_executing {s : State W F S C} {worker : W} {fiber : F}
    (inside : (s.pc worker).executing = some fiber) :
    s.handled worker = some fiber := by
  unfold handled
  cases pc : s.pc worker <;> rw [pc] at inside <;> first
    | exact inside
    | cases inside

theorem handled_of_assigns {s : State W F S C} {worker : W} {fiber : F}
    (writes : s.assigns worker = some fiber) :
    s.handled worker = some fiber := by
  unfold assigns at writes
  unfold handled
  split at writes <;> rename_i pc <;> first
    | (rw [pc]; exact writes)
    | cases writes

end State

theorem handled_eq {s next : State W F S C} {worker : W}
    (pc : next.pc worker = s.pc worker)
    (cbFiber : next.cbFiber worker = s.cbFiber worker) :
    next.handled worker = s.handled worker := by
  rw [State.handled, State.handled, pc, cbFiber]

variable [DecidableEq W] [DecidableEq F]

/-- A scan takes no fiber that another worker still handles. -/
def Undisturbed (s : State W F S C) : Action W F S C → Prop
  | .work worker => ∀ other, other ≠ worker →
      s.handled other = s.takes worker → s.takes worker = none
  | _ => True

instance [Fintype W] (s : State W F S C) :
    (action : Action W F S C) → Decidable (Undisturbed s action)
  | .work worker =>
      inferInstanceAs (Decidable (∀ other, other ≠ worker →
        s.handled other = s.takes worker → s.takes worker = none))
  | .construct _ _ => inferInstanceAs (Decidable True)
  | .run _ _ => inferInstanceAs (Decidable True)
  | .call _ => inferInstanceAs (Decidable True)

/-- The fibers some part of the state refers to were created. -/
structure Known (s : State W F S C) : Prop where
  handled : ∀ worker fiber, s.handled worker = some fiber →
    s.created fiber = true
  cbFiber : ∀ worker fiber, s.cbFiber worker = some fiber →
    s.created fiber = true
  queued : ∀ ft ∈ s.fibers, ∀ fiber, ft.task = .fiber fiber →
    s.created fiber = true
  waiting : ∀ semaphore, ∀ fiber ∈ (s.semaphore semaphore).waiters,
    s.created fiber = true

def Exclusive (s : State W F S C) : Prop :=
  ∀ worker other fiber, s.handled worker = some fiber →
    s.handled other = some fiber → worker = other

/-- The step with which a worker begins to handle a fiber. -/
def Acquires (s : State W F S C) (worker : W) (fiber : F) :
    Action W F S C → Prop
  | .work actor => worker = actor ∧ s.takes actor = some fiber
  | .construct actor fresh =>
      worker = actor ∧ fiber = fresh ∧ s.created fresh = false
  | _ => False

/-! What a step changes of what is handled. -/

theorem work_other {s next : State W F S C} {worker other : W}
    (taken : work s worker = some next) (different : other ≠ worker) :
    next.pc other = s.pc other ∧ next.cbFiber other = s.cbFiber other := by
  unfold work at taken
  repeat' split at taken
  all_goals cases taken
  all_goals simp [State.goto, State.setState, State.setCbFiber, State.schedule,
    different]

theorem work_idleFiber {s next : State W F S C} {worker other : W}
    (taken : work s worker = some next) (different : other ≠ worker) :
    next.idleFiber other = s.idleFiber other := by
  unfold work at taken
  repeat' split at taken
  all_goals cases taken
  all_goals first
    | rfl
    | exact Function.update_of_ne different _ _

theorem work_handled {s next : State W F S C} {worker : W} {fiber : F}
    (taken : work s worker = some next)
    (handled : next.handled worker = some fiber) :
    s.handled worker = some fiber ∨ s.takes worker = some fiber := by
  unfold work at taken
  cases pc : s.pc worker with
  | scan =>
      right
      simp only [pc] at taken
      split at taken <;> cases taken
      · simp [State.handled, State.goto, Pc.handled, Pc.fiber?] at handled
      · rename_i ft rest found
        simpa [State.handled, State.takes, State.goto, Pc.handled, pc, found]
          using handled
  | took ft =>
      left
      simp only [pc] at taken
      repeat' split at taken
      all_goals cases taken
      all_goals simp_all [State.handled, State.goto, State.setState, Pc.handled,
        Pc.fiber?, Task.fiber?]
  | _ =>
      left
      simp only [pc] at taken
      repeat' split at taken
      all_goals cases taken
      all_goals simp_all [State.handled, State.goto, State.setState,
        State.setCbFiber, State.schedule, Pc.handled, Pc.fiber?]

theorem construct_handled {s next : State W F S C} {worker other : W}
    {fresh fiber : F} (taken : construct s worker fresh = some next)
    (handled : next.handled other = some fiber) :
    s.handled other = some fiber ∨
      other = worker ∧ fiber = fresh ∧ s.created fresh = false := by
  unfold construct at taken
  split at taken
  · split at taken
    · cases taken
    · rename_i unused
      cases taken
      by_cases same : other = worker
      · subst same
        right
        simp [State.handled, State.goto, State.setCbFiber, State.setState,
          Pc.handled, Pc.fiber?] at handled
        exact ⟨rfl, handled.symm, by simpa using unused⟩
      · left
        simpa [State.handled, State.goto, State.setCbFiber, State.setState, same]
          using handled
  · cases taken

omit [DecidableEq F] in
theorem Acquires.unique {s : State W F S C} {action : Action W F S C}
    {worker other : W} {fiber : F} (first : Acquires s worker fiber action)
    (second : Acquires s other fiber action) : worker = other := by
  cases action with
  | work actor => exact first.1.trans second.1.symm
  | construct actor fresh => exact first.1.trans second.1.symm
  | run actor op => exact first.elim
  | call request => exact first.elim

omit [DecidableEq F] in
theorem Acquires.alone {s : State W F S C} {action : Action W F S C}
    {worker other : W} {fiber : F} (known : Known s)
    (undisturbed : Undisturbed s action)
    (acquires : Acquires s worker fiber action)
    (handled : s.handled other = some fiber) : other = worker := by
  cases action with
  | work actor =>
      obtain ⟨rfl, takes⟩ := acquires
      by_contra different
      have none_taken := undisturbed other different (handled.trans takes.symm)
      rw [takes] at none_taken
      cases none_taken
  | construct actor fresh =>
      obtain ⟨rfl, rfl, unused⟩ := acquires
      rw [known.handled other fiber handled] at unused
      cases unused
  | run actor op => exact acquires.elim
  | call request => exact acquires.elim

variable [DecidableEq S]

omit [DecidableEq F] in
theorem run_handled {s next : State W F S C} {worker other : W}
    {op : Op W S} {fiber : F} (taken : run s worker op = some next)
    (handled : next.handled other = some fiber) :
    s.handled other = some fiber := by
  simp only [run] at taken
  split at taken
  · rename_i job pc
    by_cases same : other = worker
    · subst same
      have current : s.handled other = some job.fiber := State.handled_at pc
      rw [current]
      repeat' split at taken
      all_goals cases taken
      all_goals simp_all [State.handled, State.goto, State.schedule,
        Pc.handled, Pc.fiber?]
    · repeat' split at taken
      all_goals cases taken
      all_goals simpa [State.handled, State.goto, State.schedule, same]
        using handled
  · cases taken

omit [DecidableEq W] in
theorem call_handled {s next : State W F S C} {request : Call W F S C}
    (taken : call s request = some next) (worker : W) :
    next.handled worker = s.handled worker := by
  simp only [call] at taken
  repeat' split at taken
  all_goals cases taken
  all_goals rfl

/-- The only ways to begin to handle a fiber are a scan and the construction
of a `cb_fiber`. -/
theorem step_handled {s next : State W F S C} {action : Action W F S C}
    {worker : W} {fiber : F} (taken : step s action = some next)
    (handled : next.handled worker = some fiber) :
    s.handled worker = some fiber ∨ Acquires s worker fiber action := by
  cases action with
  | work actor =>
      by_cases same : worker = actor
      · subst same
        rcases work_handled taken handled with before | takes
        · exact .inl before
        · exact .inr ⟨rfl, takes⟩
      · obtain ⟨pc, cbFiber⟩ := work_other taken same
        exact .inl ((handled_eq pc cbFiber).symm.trans handled)
  | construct actor fresh => exact construct_handled taken handled
  | run actor op => exact .inl (run_handled taken handled)
  | call request => exact .inl ((call_handled taken worker).symm.trans handled)

theorem exclusive_step {s next : State W F S C} {action : Action W F S C}
    (known : Known s) (exclusive : Exclusive s)
    (undisturbed : Undisturbed s action) (taken : step s action = some next) :
    Exclusive next := by
  intro worker other fiber first second
  rcases step_handled taken first with before | acquires
  · rcases step_handled taken second with earlier | acquires
    · exact exclusive worker other fiber before earlier
    · exact acquires.alone known undisturbed before
  · rcases step_handled taken second with earlier | again
    · exact (acquires.alone known undisturbed earlier).symm
    · exact acquires.unique again

/-! Every fiber in use was created. -/

omit [DecidableEq F] in
theorem scan_mem {state : F → FiberState} {worker : W}
    {fibers rest : List (FiberAndThread W F C)} {ft : FiberAndThread W F C}
    (found : scan state worker fibers = some (ft, rest)) :
    ft ∈ fibers ∧ ∀ other ∈ rest, other ∈ fibers := by
  induction fibers generalizing rest with
  | nil => cases found
  | cons it fibers ih =>
      have skipped : (scan state worker fibers).map
          (fun (ft, rest) => (ft, it :: rest)) = some (ft, rest) →
          ft ∈ it :: fibers ∧ ∀ other ∈ rest, other ∈ it :: fibers := by
        intro later
        obtain ⟨⟨taken, remaining⟩, result, same⟩ :=
          Option.map_eq_some_iff.mp later
        cases same
        obtain ⟨inside, others⟩ := ih result
        refine ⟨List.mem_cons_of_mem it inside, ?_⟩
        intro other member
        rcases List.mem_cons.mp member with rfl | member
        · exact List.mem_cons_self
        · exact List.mem_cons_of_mem it (others other member)
      have here : some (it, fibers) = some (ft, rest) →
          ft ∈ it :: fibers ∧ ∀ other ∈ rest, other ∈ it :: fibers := by
        intro same
        cases same
        exact ⟨List.mem_cons_self, fun other => List.mem_cons_of_mem ft⟩
      unfold scan at found
      split at found
      · exact skipped found
      · split at found
        · split at found
          · exact skipped found
          · exact here found
        · exact here found

omit [DecidableEq S] [DecidableEq F] in
theorem Known.takes {s : State W F S C} (known : Known s) {worker : W}
    {fiber : F} (takes : s.takes worker = some fiber) :
    s.created fiber = true := by
  unfold State.takes at takes
  split at takes
  · obtain ⟨⟨ft, rest⟩, found, runs⟩ := Option.bind_eq_some_iff.mp takes
    simp only at runs
    cases task : ft.task with
    | fiber own =>
        rw [task] at runs
        cases runs
        exact known.queued ft (scan_mem found).1 fiber task
    | cb callback =>
        rw [task] at runs
        exact known.cbFiber worker fiber runs
  · cases takes

omit [DecidableEq S] in
theorem work_frame {s next : State W F S C} {worker : W}
    (taken : work s worker = some next) :
    next.created = s.created ∧ next.semaphore = s.semaphore := by
  unfold work at taken
  repeat' split at taken
  all_goals cases taken
  all_goals exact ⟨rfl, rfl⟩

omit [DecidableEq S] in
theorem work_cbFiber {s next : State W F S C} {worker other : W} {fiber : F}
    (taken : work s worker = some next)
    (current : next.cbFiber other = some fiber) :
    s.cbFiber other = some fiber := by
  by_cases same : other = worker
  · subst same
    unfold work at taken
    repeat' split at taken
    all_goals cases taken
    all_goals simp_all [State.goto, State.setState, State.setCbFiber,
      State.schedule]
  · rwa [(work_other taken same).2] at current

omit [DecidableEq S] in
theorem work_queued {s next : State W F S C} {worker : W}
    {ft : FiberAndThread W F C} (taken : work s worker = some next)
    (member : ft ∈ next.fibers) :
    ft ∈ s.fibers ∨ ∃ fiber, ft.task = .fiber fiber ∧
      s.handled worker = some fiber := by
  unfold work at taken
  cases pc : s.pc worker with
  | scan =>
      left
      simp only [pc] at taken
      split at taken <;> cases taken
      · exact member
      · rename_i found
        exact (scan_mem found).2 ft member
  | requeue job =>
      have current : s.handled worker = some job.fiber := State.handled_at pc
      simp only [pc] at taken
      split at taken <;> cases taken
      all_goals
        rcases List.mem_append.mp member with before | added
        · exact .inl before
        · obtain rfl := List.mem_singleton.mp added
          exact .inr ⟨job.fiber, rfl, current⟩
  | _ =>
      left
      simp only [pc] at taken
      repeat' split at taken
      all_goals cases taken
      all_goals exact member

omit [DecidableEq S] in
theorem known_work {s next : State W F S C} {worker : W} (known : Known s)
    (taken : work s worker = some next) : Known next := by
  obtain ⟨created, semaphore⟩ := work_frame taken
  refine ⟨?_, ?_, ?_, ?_⟩ <;> rw [created]
  · intro other fiber handled
    by_cases same : other = worker
    · subst same
      rcases work_handled taken handled with before | takes
      · exact known.handled other fiber before
      · exact known.takes takes
    · obtain ⟨pc, cbFiber⟩ := work_other taken same
      exact known.handled other fiber ((handled_eq pc cbFiber).symm.trans handled)
  · intro other fiber current
    exact known.cbFiber other fiber (work_cbFiber taken current)
  · intro ft member fiber task
    rcases work_queued taken member with before | ⟨own, runs, handled⟩
    · exact known.queued ft before fiber task
    · rw [task] at runs
      cases runs
      exact known.handled worker fiber handled
  · rw [semaphore]
    exact known.waiting

omit [DecidableEq S] in
theorem known_construct {s next : State W F S C} {worker : W} {fresh : F}
    (known : Known s) (taken : construct s worker fresh = some next) :
    Known next := by
  have grows : next.created = Function.update s.created fresh true ∧
      next.fibers = s.fibers ∧ next.semaphore = s.semaphore ∧
      next.cbFiber = Function.update s.cbFiber worker (some fresh) := by
    unfold construct at taken
    repeat' split at taken
    all_goals cases taken
    exact ⟨rfl, rfl, rfl, rfl⟩
  obtain ⟨created, fibers, semaphore, cbFiber⟩ := grows
  have old : ∀ fiber, s.created fiber = true → next.created fiber = true := by
    intro fiber before
    rw [created, Function.update_apply]
    split
    · rfl
    · exact before
  have new : next.created fresh = true := by
    rw [created, Function.update_self]
  refine ⟨?_, ?_, ?_, ?_⟩
  · intro other fiber handled
    rcases construct_handled taken handled with before | ⟨-, rfl, -⟩
    · exact old fiber (known.handled other fiber before)
    · exact new
  · intro other fiber current
    rw [cbFiber, Function.update_apply] at current
    split at current
    · cases current
      exact new
    · exact old fiber (known.cbFiber other fiber current)
  · intro ft member fiber task
    rw [fibers] at member
    exact old fiber (known.queued ft member fiber task)
  · intro which fiber member
    rw [semaphore] at member
    exact old fiber (known.waiting which fiber member)

omit [DecidableEq F] in
theorem run_frame {s next : State W F S C} {worker : W} {op : Op W S}
    (taken : run s worker op = some next) :
    next.created = s.created ∧ next.cbFiber = s.cbFiber ∧
      (∀ ft ∈ next.fibers, ft ∈ s.fibers ∨
        ∃ fiber, ft.task = .fiber fiber ∧ s.handled worker = some fiber) ∧
      ∀ semaphore, ∀ fiber ∈ (next.semaphore semaphore).waiters,
        fiber ∈ (s.semaphore semaphore).waiters ∨
          s.handled worker = some fiber := by
  simp only [run] at taken
  split at taken
  · rename_i job pc
    have current : s.handled worker = some job.fiber := State.handled_at pc
    cases op with
    | wait which =>
        simp only at taken
        split at taken <;> cases taken
        · refine ⟨rfl, rfl, fun ft => .inl, ?_⟩
          intro semaphore fiber member
          left
          simp only [Function.update_apply] at member
          split at member
          · rename_i same
            rwa [same]
          · exact member
        · refine ⟨rfl, rfl, fun ft => .inl, ?_⟩
          intro semaphore fiber member
          simp only [State.goto, Function.update_apply] at member
          split at member
          · rename_i same
            rcases List.mem_append.mp member with before | added
            · rw [same]
              exact .inl before
            · obtain rfl := List.mem_singleton.mp added
              exact .inr current
          · exact .inl member
    | switchTo thread =>
        simp only at taken
        split at taken <;> cases taken
        · exact ⟨rfl, rfl, fun ft => .inl, fun which fiber => .inl⟩
        · refine ⟨rfl, rfl, ?_, fun which fiber => .inl⟩
          intro ft member
          rcases List.mem_append.mp member with before | added
          · exact .inl before
          · obtain rfl := List.mem_singleton.mp added
            exact .inr ⟨job.fiber, rfl, current⟩
    | _ =>
        cases taken
        exact ⟨rfl, rfl, fun ft => .inl, fun which fiber => .inl⟩
  · cases taken

omit [DecidableEq F] in
theorem known_run {s next : State W F S C} {worker : W} {op : Op W S}
    (known : Known s) (taken : run s worker op = some next) : Known next := by
  obtain ⟨created, cbFiber, queued, waiting⟩ := run_frame taken
  refine ⟨?_, ?_, ?_, ?_⟩ <;> rw [created]
  · intro other fiber handled
    exact known.handled other fiber (run_handled taken handled)
  · rw [cbFiber]
    exact known.cbFiber
  · intro ft member fiber task
    rcases queued ft member with before | ⟨own, runs, handled⟩
    · exact known.queued ft before fiber task
    · rw [task] at runs
      cases runs
      exact known.handled worker fiber handled
  · intro which fiber member
    rcases waiting which fiber member with before | handled
    · exact known.waiting which fiber before
    · exact known.handled worker fiber handled

omit [DecidableEq W] [DecidableEq F] [DecidableEq S] in
theorem Known.schedule {s : State W F S C} (known : Known s) {task : Task F C}
    {thread : Option W}
    (created : ∀ fiber, task = .fiber fiber → s.created fiber = true) :
    Known (s.schedule task thread) where
  handled := known.handled
  cbFiber := known.cbFiber
  queued := by
    intro ft member fiber runs
    rcases List.mem_append.mp member with before | added
    · exact known.queued ft before fiber runs
    · obtain rfl := List.mem_singleton.mp added
      exact created fiber runs
  waiting := known.waiting

omit [DecidableEq W] [DecidableEq F] in
theorem Known.semaphore {s : State W F S C} (known : Known s) (which : S)
    {sem : FiberSemaphore F}
    (fewer : ∀ fiber ∈ sem.waiters, fiber ∈ (s.semaphore which).waiters) :
    Known { s with semaphore := Function.update s.semaphore which sem } where
  handled := known.handled
  cbFiber := known.cbFiber
  queued := known.queued
  waiting := by
    intro other fiber member
    simp only [Function.update_apply] at member
    split at member
    · exact known.waiting which fiber (fewer fiber member)
    · exact known.waiting other fiber member

omit [DecidableEq W] in
theorem known_call {s next : State W F S C} {request : Call W F S C}
    (known : Known s) (taken : call s request = some next) : Known next := by
  cases request with
  | create fresh =>
      simp only [call] at taken
      split at taken <;> cases taken
      have old : ∀ fiber, s.created fiber = true →
          Function.update s.created fresh true fiber = true := by
        intro fiber before
        rw [Function.update_apply]
        split
        · rfl
        · exact before
      exact {
        handled := fun other fiber handled =>
          old fiber (known.handled other fiber handled)
        cbFiber := fun other fiber current =>
          old fiber (known.cbFiber other fiber current)
        queued := fun ft member fiber task =>
          old fiber (known.queued ft member fiber task)
        waiting := fun which fiber member =>
          old fiber (known.waiting which fiber member) }
  | schedule task thread =>
      cases task with
      | fiber own =>
          simp only [call] at taken
          split at taken <;> cases taken
          rename_i created
          apply known.schedule
          intro fiber same
          cases same
          exact created
      | cb callback =>
          cases taken
          apply known.schedule
          intro fiber same
          cases same
  | notify which =>
      simp only [call] at taken
      split at taken <;> cases taken
      · rename_i empty
        exact known.semaphore which fun fiber => id
      · rename_i next waiters waiting
        apply (known.semaphore which ?_).schedule
        · intro fiber same
          cases same
          apply known.waiting which
          rw [waiting]
          exact List.mem_cons_self
        · intro fiber member
          rw [waiting]
          exact List.mem_cons_of_mem next member
  | stop =>
      cases taken
      exact ⟨known.handled, known.cbFiber, known.queued, known.waiting⟩

theorem known_step {s next : State W F S C} {action : Action W F S C}
    (known : Known s) (taken : step s action = some next) : Known next := by
  cases action with
  | work worker => exact known_work known taken
  | construct worker fresh => exact known_construct known taken
  | run worker op => exact known_run known taken
  | call request => exact known_call known taken

omit [DecidableEq W] [DecidableEq F] [DecidableEq S] in
theorem Initial.idle {s : State W F S C} (initial : Initial s) (worker : W) :
    s.handled worker = none := by
  rw [State.handled, initial.pc]
  rfl

omit [DecidableEq W] [DecidableEq F] [DecidableEq S] in
theorem Initial.known {s : State W F S C} (initial : Initial s) : Known s where
  handled := by
    intro worker fiber handled
    rw [initial.idle] at handled
    cases handled
  cbFiber := by
    intro worker fiber current
    rw [initial.cbFiber] at current
    cases current
  queued := by
    intro ft member
    rw [initial.fibers] at member
    cases member
  waiting := by
    intro which fiber member
    rw [initial.waiters] at member
    cases member

theorem exclusive_run {s : State W F S C}
    (reached : Reach Initial (StepWhen step Undisturbed) s) :
    Known s ∧ Exclusive s := by
  refine @Reach.invariant _ _ _ _ (fun s => Known s ∧ Exclusive s) ?_ ?_ _
    reached
  · intro state initial
    refine ⟨initial.known, ?_⟩
    intro worker other fiber handled
    rw [initial.idle] at handled
    cases handled
  · rintro state action next ⟨known, exclusive⟩ ⟨undisturbed, taken⟩
    exact ⟨known_step known taken,
      exclusive_step known exclusive undisturbed taken⟩

/-- In a run whose scans take no fiber that another worker still handles, no
two workers are in `swapIn` on one fiber and no worker assigns the state of a
fiber that another one executes. -/
theorem swapIn_exclusive {s : State W F S C}
    (reached : Reach Initial (StepWhen step Undisturbed) s) :
    (∀ worker other fiber, (s.pc worker).inSwapIn = some fiber →
      (s.pc other).inSwapIn = some fiber → worker = other) ∧
    ∀ worker other fiber, s.assigns worker = some fiber →
      (s.pc other).executing = some fiber → worker = other := by
  obtain ⟨-, exclusive⟩ := exclusive_run reached
  constructor
  · intro worker other fiber first second
    exact exclusive worker other fiber (State.handled_of_inSwapIn first)
      (State.handled_of_inSwapIn second)
  · intro worker other fiber writes executes
    exact exclusive worker other fiber (State.handled_of_assigns writes)
      (State.handled_of_executing executes)

/-- Two workers, one semaphore and one callback, before the first step. -/
def fresh : State Bool Nat Unit Unit where
  fibers := []
  state := fun _ => .INIT
  created := fun _ => false
  pc := fun _ => .scan
  cbFiber := fun _ => none
  idleFiber := fun _ => .INIT
  semaphore := fun _ => ⟨[], 0⟩
  activeThreadCount := 0
  idleThreadCount := 0
  stopFlags := false

theorem fresh_initial : Initial fresh :=
  ⟨rfl, fun _ => rfl, fun _ => rfl, fun _ => rfl, fun _ => rfl⟩

/-- The callback waits on the semaphore, its worker finishes with it, and after
the notification the other worker runs it on. -/
theorem swapIn_exclusive_notified :
    ∃ s : State Bool Nat Unit Unit,
      s.pc true = .body ⟨0, .entry none⟩ ∧
      (∀ worker other fiber, (s.pc worker).inSwapIn = some fiber →
        (s.pc other).inSwapIn = some fiber → worker = other) ∧
      ∀ worker other fiber, s.assigns worker = some fiber →
        (s.pc other).executing = some fiber → worker = other := by
  obtain ⟨s, ran, place⟩ : ∃ s, exec (guarded step Undisturbed) fresh
      [.call (.schedule (.cb ()) none), .work false, .construct false 0,
        .work false, .work false, .work false, .run false (.wait ()),
        .work false, .work false, .work false, .work false, .work false,
        .work false, .work false, .call (.notify ()), .work true, .work true,
        .work true, .work true, .work true] = some s ∧
      s.pc true = .body ⟨0, .entry none⟩ := ⟨_, rfl, rfl⟩
  exact ⟨s, place,
    swapIn_exclusive (reach_guarded (.start fresh fresh_initial) ran)⟩

/-- The waiter is notified after `m_state = HOLD` and before its jump: the other
worker takes it and calls `swapIn` while the first `swapIn` has not returned.
Then the first worker writes `HOLD` while the other one executes the fiber. -/
theorem swapIn_shared :
    (∃ s : State Bool Nat Unit Unit, Reach Initial (StepOf step) s ∧
      (s.pc false).inSwapIn = some 0 ∧ (s.pc true).inSwapIn = some 0) ∧
    ∃ s : State Bool Nat Unit Unit, Reach Initial (StepOf step) s ∧
      s.assigns false = some 0 ∧ (s.pc true).executing = some 0 := by
  obtain ⟨first, ran, left, right⟩ : ∃ s, exec step fresh
      [.call (.schedule (.cb ()) none), .work false, .construct false 0,
        .work false, .work false, .work false, .run false (.wait ()),
        .work false, .call (.notify ()), .work true, .work true] = some s ∧
      (s.pc false).inSwapIn = some 0 ∧ (s.pc true).inSwapIn = some 0 :=
    ⟨_, rfl, rfl, rfl⟩
  have reached := reach_exec (.start fresh fresh_initial) ran
  obtain ⟨second, continued, writes, executes⟩ : ∃ s, exec step fresh
      [.call (.schedule (.cb ()) none), .work false, .construct false 0,
        .work false, .work false, .work false, .run false (.wait ()),
        .work false, .call (.notify ()), .work true, .work true,
        .work true, .work true, .work true, .work false, .work false,
        .work false, .work false, .work false] = some s ∧
      s.assigns false = some 0 ∧ (s.pc true).executing = some 0 :=
    ⟨_, rfl, rfl, rfl⟩
  exact ⟨⟨first, reached, left, right⟩, ⟨second,
    reach_exec (.start fresh fresh_initial) continued, writes, executes⟩⟩

end Sylar.Scheduler
