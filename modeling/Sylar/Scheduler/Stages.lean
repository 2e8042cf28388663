import Sylar.Scheduler.Conservation

namespace Sylar.Scheduler

open Logic

/-! What a worker relies on about the state of the fiber it handles, at every
place of `run()`, in the runs in which a fiber is taken out of the queue only
when no worker has to do with it. -/

variable {W F S C : Type}

namespace Pc

def job? : Pc W F C → Option (Job W F)
  | .swapIn job => some job
  | .mark job => some job
  | .enter job => some job
  | .body job => some job
  | .leave job _ => some job
  | .swapOut job => some job
  | .landed job => some job
  | .returned job => some job
  | .testReady job => some job
  | .testEnded job => some job
  | .requeue job => some job
  | .hold job => some job
  | .retire job => some job
  | _ => none

/-- The fiber that the worker has out of the queue. -/
def borrows : Pc W F C → Option F
  | .took ⟨.fiber own, _⟩ => some own
  | pc => pc.job?.bind fun job =>
      match job.origin with
      | .entry _ => some job.fiber
      | .callback => none

/-- The states in which the handled fiber can be. -/
def allows : Pc W F C → FiberState → Bool
  | .took ⟨.fiber _, _⟩, state => state ≠ .EXEC
  | .took ⟨.cb _, _⟩, state => state = .INIT
  | .swapIn _, state => state ≠ .EXEC && !state.ended
  | .mark _, state => state ≠ .EXEC && !state.ended
  | .enter _, state => state = .EXEC
  | .body _, state => state = .EXEC
  | .leave _ left, state => state = .EXEC && left ≠ .EXEC && left ≠ .INIT
  | .swapOut _, state => state ≠ .EXEC && state ≠ .INIT
  | .landed _, state => state ≠ .EXEC && state ≠ .INIT
  | .returned _, state => state ≠ .EXEC && state ≠ .INIT
  | .testReady _, state => state ≠ .EXEC && state ≠ .INIT
  | .testEnded _, state => state = .HOLD || state.ended
  | .requeue _, state => state = .READY
  | .hold _, state => state = .HOLD
  | .retire _, state => state.ended
  | _, _ => true

/-- The states in which the idle fiber can be. -/
def idles : Pc W F C → FiberState → Bool
  | .idle, state => state = .EXEC
  | .recheck, state => state = .INIT || state = .HOLD
  | .idleIn, state => state = .INIT || state = .HOLD
  | .idleOut, state => state = .HOLD || state = .TERM
  | _, state => state = .INIT || state = .HOLD || state = .TERM

theorem handled_of_job {pc : Pc W F C} {job : Job W F} (runs : pc.job? = some job)
    (cbFiber : Option F) : pc.handled cbFiber = some job.fiber := by
  cases pc <;> first
    | (cases runs; rfl)
    | cases runs

theorem borrows_of_job {pc : Pc W F C} {job : Job W F} (runs : pc.job? = some job) :
    pc.borrows = match job.origin with
      | .entry _ => some job.fiber
      | .callback => none := by
  cases pc <;> first
    | (cases runs; rfl)
    | cases runs

theorem idles_of_job {pc : Pc W F C} {job : Job W F} (runs : pc.job? = some job) :
    pc.idles = (Pc.scan : Pc W F C).idles := by
  cases pc <;> first
    | rfl
    | cases runs

theorem handled_of_borrows {pc : Pc W F C} {fiber : F}
    (borrowed : pc.borrows = some fiber) (cbFiber : Option F) :
    pc.handled cbFiber = some fiber := by
  cases runs : pc.job? with
  | some job =>
      rw [borrows_of_job runs] at borrowed
      rw [handled_of_job runs]
      split at borrowed
      · exact borrowed
      · cases borrowed
  | none =>
      cases pc with
      | took ft =>
          obtain ⟨task, thread⟩ := ft
          cases task with
          | fiber own => exact borrowed
          | cb callback => cases borrowed
      | _ => first
        | cases borrowed
        | cases runs

end Pc

namespace State

/-- The fiber entry that the scan of the worker is about to take. -/
def takesEntry [DecidableEq W] (s : State W F S C) (worker : W) : Option F :=
  match s.pc worker with
  | .scan =>
      (scan s.state worker s.fibers).bind fun (ft, _) =>
        match ft.task with
        | .fiber own => some own
        | .cb _ => none
  | _ => none

end State

variable [DecidableEq W] [DecidableEq F] [DecidableEq S]

/-- A scan takes a fiber only when no worker handles it and none has it as its
`cb_fiber`. -/
def Resumable (s : State W F S C) : Action W F S C → Prop
  | .work worker => ∀ fiber ∈ s.takesEntry worker, ∀ other,
      s.handled other ≠ some fiber ∧ s.cbFiber other ≠ some fiber
  | _ => True

instance [Fintype W] (s : State W F S C) :
    (action : Action W F S C) → Decidable (Resumable s action)
  | .work worker =>
      inferInstanceAs (Decidable (∀ fiber ∈ s.takesEntry worker, ∀ other,
        s.handled other ≠ some fiber ∧ s.cbFiber other ≠ some fiber))
  | .construct _ _ => inferInstanceAs (Decidable True)
  | .run _ _ => inferInstanceAs (Decidable True)
  | .call _ => inferInstanceAs (Decidable True)

/-- What a worker relies on. -/
structure Fit (s : State W F S C) (worker : W) : Prop where
  allowed : ∀ fiber, s.handled worker = some fiber →
    (s.pc worker).allows (s.state fiber) = true
  owned : ∀ fiber, s.handled worker = some fiber →
    (s.pc worker).borrows = some fiber ∨ s.cbFiber worker = some fiber
  spare : ∀ fiber, s.cbFiber worker = some fiber →
    s.handled worker ≠ some fiber → s.state fiber = .INIT
  idle : (s.pc worker).idles (s.idleFiber worker) = true

structure Staged (s : State W F S C) : Prop where
  known : Known s
  exclusive : Exclusive s
  fit : ∀ worker, Fit s worker
  lent : ∀ worker other fiber, (s.pc worker).borrows = some fiber →
    s.cbFiber other ≠ some fiber
  single : ∀ worker other fiber, s.cbFiber worker = some fiber →
    s.cbFiber other = some fiber → worker = other
  rest : ∀ fiber, (∀ worker, s.handled worker ≠ some fiber) →
    s.state fiber ≠ .EXEC
  new : ∀ fiber, s.created fiber = false → s.state fiber = .INIT

variable {s next : State W F S C} {worker : W}

omit [DecidableEq F] [DecidableEq S] in
@[simp] theorem goto_self (s : State W F S C) (worker : W) (pc : Pc W F C) :
    (s.goto worker pc).pc worker = pc := Function.update_self _ _ _

/-- What a step of a worker does to the fibers. -/
structure Turn (s next : State W F S C) (worker : W) : Prop where
  fit : Fit next worker
  others : ∀ fiber, s.handled worker ≠ some fiber →
    next.state fiber = s.state fiber
  released : ∀ fiber, s.handled worker = some fiber →
    next.handled worker ≠ some fiber → next.state fiber ≠ .EXEC
  borrowed : ∀ fiber, (next.pc worker).borrows = some fiber →
    (s.pc worker).borrows = some fiber ∨ s.takesEntry worker = some fiber

omit [DecidableEq F] [DecidableEq S] in
/-- The worker goes on with the fiber it handles. -/
theorem Turn.advance (fit : Fit s worker) {job : Job W F}
    (before : (s.pc worker).job? = some job)
    (after : (next.pc worker).job? = some job)
    (cbFiber : next.cbFiber worker = s.cbFiber worker)
    (idleFiber : next.idleFiber worker = s.idleFiber worker)
    (state : ∀ fiber, fiber ≠ job.fiber → next.state fiber = s.state fiber)
    (allowed : (next.pc worker).allows (next.state job.fiber) = true) :
    Turn s next worker := by
  have handled : s.handled worker = some job.fiber := Pc.handled_of_job before _
  have handles : next.handled worker = some job.fiber := Pc.handled_of_job after _
  have others : ∀ fiber, s.handled worker ≠ some fiber →
      next.state fiber = s.state fiber := by
    intro fiber elsewhere
    apply state
    rintro rfl
    exact elsewhere handled
  have idle : (next.pc worker).idles (next.idleFiber worker) = true := by
    rw [Pc.idles_of_job after, idleFiber, ← Pc.idles_of_job before]
    exact fit.idle
  refine ⟨⟨?_, ?_, ?_, idle⟩, others, ?_, ?_⟩
  · intro fiber current
    rw [handles] at current
    cases current
    exact allowed
  · intro fiber current
    rw [cbFiber, Pc.borrows_of_job after, ← Pc.borrows_of_job before]
    apply fit.owned fiber
    rw [handled, ← handles]
    exact current
  · intro fiber own current
    rw [cbFiber] at own
    have elsewhere : s.handled worker ≠ some fiber := by
      rw [handled, ← handles]
      exact current
    rw [others fiber elsewhere]
    exact fit.spare fiber own elsewhere
  · intro fiber current gone
    rw [handles, ← handled] at gone
    exact absurd current gone
  · intro fiber borrows
    rw [Pc.borrows_of_job after, ← Pc.borrows_of_job before] at borrows
    exact .inl borrows

omit [DecidableEq F] [DecidableEq S] in
theorem Turn.forward (fit : Fit s worker) {job : Job W F}
    (before : (s.pc worker).job? = some job) (pc : Pc W F C)
    (after : pc.job? = some job)
    (allowed : pc.allows (s.state job.fiber) = true) (active : Nat) :
    Turn s ({ s with activeThreadCount := active }.goto worker pc) worker := by
  apply Turn.advance fit before
  · rw [goto_self]
    exact after
  · rfl
  · rfl
  · exact fun _ _ => rfl
  · rw [goto_self]
    exact allowed

omit [DecidableEq F] [DecidableEq S] in
theorem Turn.release (handles : next.handled worker = none)
    (others : ∀ fiber, s.handled worker ≠ some fiber →
      next.state fiber = s.state fiber)
    (released : ∀ fiber, s.handled worker = some fiber →
      next.state fiber ≠ .EXEC)
    (spare : ∀ fiber, next.cbFiber worker = some fiber →
      next.state fiber = .INIT)
    (idle : (next.pc worker).idles (next.idleFiber worker) = true) :
    Turn s next worker := by
  refine ⟨⟨?_, ?_, fun fiber own _ => spare fiber own, idle⟩, others,
    fun fiber current _ => released fiber current, ?_⟩
  · intro fiber current
    rw [handles] at current
    cases current
  · intro fiber current
    rw [handles] at current
    cases current
  · intro fiber borrows
    have handled : next.handled worker = some fiber :=
      Pc.handled_of_borrows borrows _
    rw [handles] at handled
    cases handled

omit [DecidableEq F] [DecidableEq S] in
theorem Turn.idle (fit : Fit s worker) (handled : s.handled worker = none)
    (pc : Pc W F C) (handles : pc.handled (s.cbFiber worker) = none)
    (idling : Nat) (idleFiber : W → FiberState)
    (idle : pc.idles (idleFiber worker) = true) :
    Turn s ({ s with
      idleThreadCount := idling
      idleFiber := idleFiber }.goto worker pc) worker := by
  apply Turn.release
  · rw [State.handled, goto_self]
    exact handles
  · exact fun _ _ => rfl
  · intro fiber current
    rw [handled] at current
    cases current
  · intro fiber own
    apply fit.spare fiber own
    simp [handled]
  · rw [goto_self]
    exact idle

omit [DecidableEq S] in
theorem Turn.scan (staged : Staged s) (pc : s.pc worker = .scan)
    (taken : work s worker = some next) : Turn s next worker := by
  have fit := staged.fit worker
  have idles := fit.idle
  have handled : s.handled worker = none := State.handled_at pc
  have spare : ∀ fiber, s.cbFiber worker = some fiber →
      s.state fiber = .INIT := by
    intro fiber own
    apply fit.spare fiber own
    simp [handled]
  simp only [work, pc] at taken
  rw [pc] at idles
  split at taken
  · cases taken
    exact Turn.idle fit handled .empty rfl s.idleThreadCount s.idleFiber idles
  · rename_i ft rest found
    cases taken
    obtain ⟨task, thread⟩ := ft
    cases task with
    | fiber own =>
        have entry : s.takesEntry worker = some own := by
          simp [State.takesEntry, pc, found]
        have executing : s.state own ≠ .EXEC := by
          have fits := (scan_some found).2.2
          simp only [takable] at fits
          intro executing
          simp [executing] at fits
        refine ⟨⟨?_, ?_, ?_, ?_⟩, fun _ _ => rfl, ?_, ?_⟩
        · simp [State.handled, State.goto, Pc.handled, Task.fiber?, Pc.allows,
            executing]
        · simp [State.handled, State.goto, Pc.handled, Task.fiber?, Pc.borrows]
        · exact fun fiber own _ => spare fiber own
        · rw [goto_self]
          exact idles
        · simp [handled]
        · intro fiber borrows
          right
          rw [entry]
          simpa [State.goto, Pc.borrows] using borrows
    | cb callback =>
        refine ⟨⟨?_, ?_, ?_, ?_⟩, fun _ _ => rfl, ?_, ?_⟩
        · simpa [State.handled, State.goto, Pc.handled, Task.fiber?, Pc.allows]
            using spare
        · exact fun fiber current => .inr (by
            simpa [State.handled, State.goto, Pc.handled, Task.fiber?]
              using current)
        · exact fun fiber own _ => spare fiber own
        · rw [goto_self]
          exact idles
        · simp [handled]
        · simp [State.goto, Pc.borrows, Pc.job?]

omit [DecidableEq S] in
/-- The worker that has taken an entry drops it, or goes on to `swapIn`. -/
theorem Turn.took (staged : Staged s) {ft : FiberAndThread W F C}
    (pc : s.pc worker = .took ft) (taken : work s worker = some next) :
    Turn s next worker := by
  have fit := staged.fit worker
  have idles := fit.idle
  obtain ⟨task, thread⟩ := ft
  simp only [work, pc] at taken
  rw [pc] at idles
  cases task with
  | fiber own =>
      have handled : s.handled worker = some own := State.handled_at pc
      have borrowed : (s.pc worker).borrows = some own := by
        rw [pc]
        rfl
      have allowed := fit.allowed own handled
      simp only [pc, Pc.allows, decide_eq_true_eq] at allowed
      have spare : ∀ fiber, s.cbFiber worker = some fiber →
          s.state fiber = .INIT := by
        intro fiber current
        apply fit.spare fiber current
        rw [handled]
        rintro ⟨⟩
        exact staged.lent worker worker own borrowed current
      simp only at taken
      split at taken
      · cases taken
        apply Turn.release
        · simp [State.handled, State.goto, Pc.handled, Pc.fiber?]
        · exact fun _ _ => rfl
        · intro fiber current
          rw [handled] at current
          cases current
          exact allowed
        · exact spare
        · rw [goto_self]
          exact idles
      · rename_i running
        cases taken
        refine ⟨⟨?_, ?_, ?_, ?_⟩, fun _ _ => rfl, ?_, ?_⟩
        · simp [State.handled, State.goto, Pc.handled, Pc.fiber?, Pc.allows,
            allowed, running]
        · simp [State.handled, State.goto, Pc.handled, Pc.fiber?, Pc.borrows,
            Pc.job?]
        · exact fun fiber current _ => spare fiber current
        · rw [goto_self]
          exact idles
        · simp [State.handled, State.goto, pc, Pc.handled, Pc.fiber?,
            Task.fiber?]
        · simp [State.goto, pc, Pc.borrows, Pc.job?]
  | cb callback =>
      simp only at taken
      split at taken
      · cases taken
      · rename_i own current
        have handled : s.handled worker = some own :=
          (State.handled_at pc).trans current
        split at taken <;> cases taken
        refine ⟨⟨?_, ?_, ?_, ?_⟩, ?_, ?_, ?_⟩
        · simp [State.handled, State.goto, State.setState, Pc.handled, Pc.fiber?,
            Pc.allows, FiberState.ended]
        · simp [State.handled, State.goto, State.setState, Pc.handled, Pc.fiber?,
            current]
        · intro fiber holds gone
          change s.cbFiber worker = some fiber at holds
          rw [current] at holds
          cases holds
          simp [State.handled, State.goto, State.setState, Pc.handled,
            Pc.fiber?] at gone
        · rw [goto_self]
          exact idles
        · intro fiber elsewhere
          apply Function.update_of_ne
          rintro rfl
          exact elsewhere handled
        · simp [State.handled, State.goto, State.setState, pc, Pc.handled,
            Pc.fiber?, Task.fiber?, current]
        · simp [State.goto, Pc.borrows, Pc.job?]

omit [DecidableEq F] [DecidableEq S] in
theorem Turn.finish (staged : Staged s) {job : Job W F}
    (before : (s.pc worker).job? = some job) (after : next.pc worker = .scan)
    (idleFiber : next.idleFiber worker = s.idleFiber worker)
    (state : ∀ fiber, fiber ≠ job.fiber → next.state fiber = s.state fiber)
    (left : next.state job.fiber ≠ .EXEC)
    (spare : ∀ fiber, next.cbFiber worker = some fiber →
      s.cbFiber worker = some fiber ∧
        (job.origin = .callback → next.state fiber = .INIT)) :
    Turn s next worker := by
  have handled : s.handled worker = some job.fiber := Pc.handled_of_job before _
  have handles : next.handled worker = none := by
    rw [State.handled, after]
    rfl
  apply Turn.release handles
  · intro fiber elsewhere
    apply state
    rintro rfl
    exact elsewhere handled
  · intro fiber current
    rw [handled] at current
    cases current
    exact left
  · intro fiber own
    obtain ⟨current, retired⟩ := spare fiber own
    cases origin : job.origin with
    | callback => exact retired origin
    | entry thread =>
        have borrowed : (s.pc worker).borrows = some job.fiber := by
          rw [Pc.borrows_of_job before, origin]
        have different : fiber ≠ job.fiber := by
          rintro rfl
          exact staged.lent worker worker _ borrowed current
        rw [state fiber different]
        apply (staged.fit worker).spare fiber current
        rw [handled]
        exact fun same => different (Option.some.inj same).symm
  · rw [after, idleFiber, ← Pc.idles_of_job before]
    exact (staged.fit worker).idle

omit [DecidableEq F] [DecidableEq S] in
/-- A worker that ran a queued fiber keeps its `cb_fiber`. -/
theorem Turn.finish_entry (staged : Staged s) {job : Job W F}
    {thread : Option W} (before : (s.pc worker).job? = some job)
    (origin : job.origin = .entry thread) (after : next.pc worker = .scan)
    (idleFiber : next.idleFiber worker = s.idleFiber worker)
    (cbFiber : next.cbFiber worker = s.cbFiber worker)
    (state : ∀ fiber, fiber ≠ job.fiber → next.state fiber = s.state fiber)
    (left : next.state job.fiber ≠ .EXEC) : Turn s next worker := by
  apply Turn.finish staged before after idleFiber state left
  intro fiber current
  rw [cbFiber] at current
  refine ⟨current, fun callback => ?_⟩
  rw [origin] at callback
  cases callback

omit [DecidableEq F] [DecidableEq S] in
/-- A worker whose callback yielded gives its `cb_fiber` away. -/
theorem Turn.finish_callback (staged : Staged s) {job : Job W F}
    (before : (s.pc worker).job? = some job) (after : next.pc worker = .scan)
    (idleFiber : next.idleFiber worker = s.idleFiber worker)
    (cbFiber : next.cbFiber worker = none)
    (state : ∀ fiber, fiber ≠ job.fiber → next.state fiber = s.state fiber)
    (left : next.state job.fiber ≠ .EXEC) : Turn s next worker := by
  apply Turn.finish staged before after idleFiber state left
  intro fiber current
  rw [cbFiber] at current
  cases current

omit [DecidableEq W] [DecidableEq F] [DecidableEq S] in
/-- The `cb_fiber` of a worker that runs a callback is the fiber it runs in. -/
theorem Fit.callback (fit : Fit s worker) {job : Job W F}
    (before : (s.pc worker).job? = some job) (origin : job.origin = .callback) :
    s.cbFiber worker = some job.fiber := by
  rcases fit.owned job.fiber (Pc.handled_of_job before _) with borrowed | own
  · rw [Pc.borrows_of_job before, origin] at borrowed
    cases borrowed
  · exact own

omit [DecidableEq W] [DecidableEq F] [DecidableEq S] in
theorem Fit.allows (fit : Fit s worker) {pc : Pc W F C} {job : Job W F}
    (place : s.pc worker = pc) (runs : pc.job? = some job) :
    pc.allows (s.state job.fiber) = true := by
  subst place
  exact fit.allowed job.fiber (Pc.handled_of_job runs _)

omit [DecidableEq S] in
theorem Turn.testEnded (staged : Staged s) {job : Job W F}
    (pc : s.pc worker = .testEnded job) (taken : work s worker = some next) :
    Turn s next worker := by
  have fit := staged.fit worker
  have before : (s.pc worker).job? = some job := by rw [pc]; rfl
  have fits := fit.allows pc rfl
  simp only [work, pc] at taken
  split at taken
  · rename_i ended
    split at taken <;> cases taken
    · rename_i origin
      apply Turn.finish_entry staged before origin
      · exact goto_self _ _ _
      · rfl
      · rfl
      · exact fun _ _ => rfl
      · intro executing
        change s.state job.fiber = .EXEC at executing
        rw [executing] at ended
        cases ended
    · exact Turn.forward fit before (.retire job) rfl ended s.activeThreadCount
  · rename_i running
    cases taken
    apply Turn.forward fit before (.hold job) rfl ?_ s.activeThreadCount
    simpa [Pc.allows, running] using fits

omit [DecidableEq S] in
theorem Turn.requeue (staged : Staged s) {job : Job W F}
    (pc : s.pc worker = .requeue job) (taken : work s worker = some next) :
    Turn s next worker := by
  have fit := staged.fit worker
  have before : (s.pc worker).job? = some job := by rw [pc]; rfl
  have fits := fit.allows pc rfl
  have left : s.state job.fiber ≠ .EXEC := by
    intro executing
    rw [executing] at fits
    cases fits
  simp only [work, pc] at taken
  split at taken <;> cases taken
  · rename_i origin
    apply Turn.finish_entry staged before origin
    · exact goto_self _ _ _
    · rfl
    · rfl
    · exact fun _ _ => rfl
    · exact left
  · apply Turn.finish_callback staged before
    · exact goto_self _ _ _
    · rfl
    · exact Function.update_self _ _ _
    · exact fun _ _ => rfl
    · exact left

omit [DecidableEq S] in
theorem Turn.hold (staged : Staged s) {job : Job W F}
    (pc : s.pc worker = .hold job) (taken : work s worker = some next) :
    Turn s next worker := by
  have before : (s.pc worker).job? = some job := by rw [pc]; rfl
  simp only [work, pc] at taken
  split at taken <;> cases taken
  · rename_i origin
    apply Turn.finish_entry staged before origin
    · exact goto_self _ _ _
    · rfl
    · rfl
    · exact fun _ different => Function.update_of_ne different _ _
    · simp [State.goto, State.setState]
  · apply Turn.finish_callback staged before
    · exact goto_self _ _ _
    · rfl
    · exact Function.update_self _ _ _
    · exact fun _ different => Function.update_of_ne different _ _
    · simp [State.goto, State.setState, State.setCbFiber]

omit [DecidableEq S] in
theorem Turn.retire (staged : Staged s) {job : Job W F}
    (pc : s.pc worker = .retire job) (taken : work s worker = some next) :
    Turn s next worker := by
  have fit := staged.fit worker
  have before : (s.pc worker).job? = some job := by rw [pc]; rfl
  simp only [work, pc] at taken
  split at taken <;> cases taken
  apply Turn.finish staged before
  · exact goto_self _ _ _
  · rfl
  · exact fun _ different => Function.update_of_ne different _ _
  · simp [State.goto, State.setState]
  · intro fiber current
    refine ⟨current, fun callback => ?_⟩
    change s.cbFiber worker = some fiber at current
    rw [fit.callback before callback] at current
    cases current
    exact Function.update_self _ _ _

omit [DecidableEq S] in
theorem work_turn (staged : Staged s) (taken : work s worker = some next) :
    Turn s next worker := by
  have fit := staged.fit worker
  cases pc : s.pc worker with
  | scan => exact Turn.scan staged pc taken
  | took ft => exact Turn.took staged pc taken
  | swapIn job =>
      have before : (s.pc worker).job? = some job := by rw [pc]; rfl
      have fits := fit.allows pc rfl
      simp only [work, pc] at taken
      split at taken <;> cases taken
      exact Turn.forward fit before (.mark job) rfl fits s.activeThreadCount
  | mark job =>
      have before : (s.pc worker).job? = some job := by rw [pc]; rfl
      simp only [work, pc] at taken
      cases taken
      apply Turn.advance fit before
      · rw [goto_self]
        rfl
      · rfl
      · rfl
      · exact fun _ different => Function.update_of_ne different _ _
      · simp [State.goto, State.setState, Pc.allows]
  | enter job =>
      have before : (s.pc worker).job? = some job := by rw [pc]; rfl
      have fits := fit.allows pc rfl
      simp only [work, pc] at taken
      cases taken
      exact Turn.forward fit before (.body job) rfl fits s.activeThreadCount
  | body job =>
      simp only [work, pc] at taken
      cases taken
  | leave job left =>
      have before : (s.pc worker).job? = some job := by rw [pc]; rfl
      have fits := fit.allows pc rfl
      simp only [work, pc] at taken
      split at taken <;> cases taken
      apply Turn.advance fit before
      · rw [goto_self]
        rfl
      · rfl
      · rfl
      · exact fun _ different => Function.update_of_ne different _ _
      · simp only [Pc.allows, Bool.and_eq_true, decide_eq_true_eq] at fits
        simp [State.goto, State.setState, Pc.allows, fits.1.2, fits.2]
  | swapOut job =>
      have before : (s.pc worker).job? = some job := by rw [pc]; rfl
      have fits := fit.allows pc rfl
      simp only [work, pc] at taken
      cases taken
      exact Turn.forward fit before (.landed job) rfl fits s.activeThreadCount
  | landed job =>
      have before : (s.pc worker).job? = some job := by rw [pc]; rfl
      have fits := fit.allows pc rfl
      simp only [work, pc] at taken
      cases taken
      exact Turn.forward fit before (.returned job) rfl fits s.activeThreadCount
  | returned job =>
      have before : (s.pc worker).job? = some job := by rw [pc]; rfl
      have fits := fit.allows pc rfl
      simp only [work, pc] at taken
      cases taken
      exact Turn.forward fit before (.testReady job) rfl fits (s.activeThreadCount - 1)
  | testReady job =>
      have before : (s.pc worker).job? = some job := by rw [pc]; rfl
      have fits := fit.allows pc rfl
      simp only [work, pc] at taken
      split at taken <;> cases taken
      · rename_i ready
        apply Turn.forward fit before (.requeue job) rfl ?_ s.activeThreadCount
        simpa [Pc.allows] using ready
      · rename_i unready
        apply Turn.forward fit before (.testEnded job) rfl ?_ s.activeThreadCount
        cases state : s.state job.fiber with
        | READY => exact absurd state unready
        | INIT =>
            rw [state] at fits
            cases fits
        | EXEC =>
            rw [state] at fits
            cases fits
        | _ => rfl
  | testEnded job => exact Turn.testEnded staged pc taken
  | requeue job => exact Turn.requeue staged pc taken
  | hold job => exact Turn.hold staged pc taken
  | retire job => exact Turn.retire staged pc taken
  | empty =>
      have handled : s.handled worker = none := State.handled_at pc
      have idles := fit.idle
      rw [pc] at idles
      simp only [work, pc] at taken
      split at taken <;> cases taken
      · exact Turn.idle fit handled .exited rfl s.idleThreadCount s.idleFiber
          idles
      · rename_i running
        apply Turn.idle fit handled .recheck rfl s.idleThreadCount s.idleFiber
        simpa [Pc.idles, running] using idles
  | recheck =>
      have handled : s.handled worker = none := State.handled_at pc
      have idles := fit.idle
      rw [pc] at idles
      simp only [work, pc] at taken
      split at taken <;> cases taken
      · apply Turn.idle fit handled .scan rfl s.idleThreadCount s.idleFiber
        cases state : s.idleFiber worker <;> rw [state] at idles <;> first
          | rfl
          | cases idles
      · exact Turn.idle fit handled .idleIn rfl (s.idleThreadCount + 1)
          s.idleFiber idles
  | idleIn =>
      have handled : s.handled worker = none := State.handled_at pc
      simp only [work, pc] at taken
      split at taken <;> cases taken
      apply Turn.idle fit handled .idle rfl s.idleThreadCount
      simp [Pc.idles]
  | idle =>
      have handled : s.handled worker = none := State.handled_at pc
      simp only [work, pc] at taken
      cases taken
      apply Turn.idle fit handled .idleOut rfl s.idleThreadCount
      cases s.stopping <;> simp [Pc.idles]
  | idleOut =>
      have handled : s.handled worker = none := State.handled_at pc
      have idles := fit.idle
      rw [pc] at idles
      simp only [work, pc] at taken
      cases taken
      apply Turn.idle fit handled .scan rfl (s.idleThreadCount - 1)
      cases state : s.idleFiber worker with
      | EXEC =>
          rw [state] at idles
          cases idles
      | EXCEPT =>
          rw [state] at idles
          cases idles
      | _ => simp [Pc.idles, FiberState.ended]
  | exited =>
      simp only [work, pc] at taken
      cases taken

/-! The invariant over the runs. -/

omit [DecidableEq F] [DecidableEq S] in
theorem undisturbed_of_resumable (staged : Staged s)
    {action : Action W F S C} (resumable : Resumable s action) :
    Undisturbed s action := by
  cases action with
  | work worker =>
      intro other different same
      cases takes : s.takes worker with
      | none => rfl
      | some fiber =>
          exfalso
          rw [takes] at same
          have entry : s.takesEntry worker ≠ some fiber := fun entry =>
            (resumable fiber entry other).1 same
          have own : s.cbFiber worker = some fiber := by
            unfold State.takes at takes
            unfold State.takesEntry at entry
            cases pc : s.pc worker with
            | scan =>
                simp only [pc] at takes entry
                obtain ⟨⟨⟨task, thread⟩, rest⟩, found, runs⟩ :=
                  Option.bind_eq_some_iff.mp takes
                cases task with
                | fiber taken =>
                    cases runs
                    rw [found] at entry
                    exact absurd rfl entry
                | cb callback => exact runs
            | _ =>
                simp only [pc] at takes
                cases takes
          rcases (staged.fit other).owned fiber same with borrows | holds
          · exact staged.lent other worker fiber borrows own
          · exact different (staged.single other worker fiber holds own)
  | _ => trivial

omit [DecidableEq W] [DecidableEq F] [DecidableEq S] in
/-- A worker that stands by keeps what it relies on. -/
theorem Fit.other {other : W} (fit : Fit s other)
    (pc : next.pc other = s.pc other)
    (cbFiber : next.cbFiber other = s.cbFiber other)
    (idleFiber : next.idleFiber other = s.idleFiber other)
    (state : ∀ fiber, s.handled other = some fiber ∨
      s.cbFiber other = some fiber → next.state fiber = s.state fiber) :
    Fit next other := by
  have handled : next.handled other = s.handled other := handled_eq pc cbFiber
  refine ⟨?_, ?_, ?_, ?_⟩
  · intro fiber current
    rw [handled] at current
    rw [pc, state fiber (.inl current)]
    exact fit.allowed fiber current
  · intro fiber current
    rw [handled] at current
    rw [pc, cbFiber]
    exact fit.owned fiber current
  · intro fiber own elsewhere
    rw [cbFiber] at own
    rw [handled] at elsewhere
    rw [state fiber (.inr own)]
    exact fit.spare fiber own elsewhere
  · rw [pc, idleFiber]
    exact fit.idle

theorem staged_work (staged : Staged s) (resumable : Resumable s (.work worker))
    (taken : work s worker = some next) : Staged next := by
  have turn := work_turn staged taken
  have others : ∀ other, other ≠ worker →
      next.pc other = s.pc other ∧ next.cbFiber other = s.cbFiber other :=
    fun other different => work_other taken different
  have known : Known next := known_work staged.known taken
  have exclusive : Exclusive next := exclusive_step staged.known
    staged.exclusive (undisturbed_of_resumable staged resumable) taken
  have created := (work_frame taken).1
  refine ⟨known, exclusive, ?_, ?_, ?_, ?_, ?_⟩
  · intro other
    rcases eq_or_ne other worker with rfl | different
    · exact turn.fit
    · obtain ⟨pc, cbFiber⟩ := others other different
      apply (staged.fit other).other pc cbFiber (work_idleFiber taken different)
      intro fiber has
      apply turn.others
      intro handled
      rcases has with handles | own
      · exact different (staged.exclusive other worker fiber handles handled)
      · rcases (staged.fit worker).owned fiber handled with borrows | holds
        · exact staged.lent worker other fiber borrows own
        · exact different (staged.single other worker fiber own holds)
  · intro one other fiber borrows own
    have before := work_cbFiber taken own
    rcases eq_or_ne one worker with rfl | different
    · rcases turn.borrowed fiber borrows with earlier | entry
      · exact staged.lent one other fiber earlier before
      · exact (resumable fiber entry other).2 before
    · rw [(others one different).1] at borrows
      exact staged.lent one other fiber borrows before
  · intro one other fiber own also
    exact staged.single one other fiber (work_cbFiber taken own)
      (work_cbFiber taken also)
  · intro fiber nobody
    by_cases handled : s.handled worker = some fiber
    · exact turn.released fiber handled (nobody worker)
    · rw [turn.others fiber handled]
      apply staged.rest
      intro other
      rcases eq_or_ne other worker with rfl | different
      · exact handled
      · obtain ⟨pc, cbFiber⟩ := others other different
        rw [← handled_eq pc cbFiber]
        exact nobody other
  · intro fiber unmade
    rw [created] at unmade
    rw [turn.others fiber]
    · exact staged.new fiber unmade
    · intro handled
      rw [staged.known.handled worker fiber handled] at unmade
      cases unmade

theorem staged_construct {fresh : F} (staged : Staged s)
    (taken : construct s worker fresh = some next) : Staged next := by
  have known : Known next := known_construct staged.known taken
  have exclusive : Exclusive next := @exclusive_step _ _ _ _ _ _ _ s next
    (.construct worker fresh) staged.known staged.exclusive trivial taken
  have idles := (staged.fit worker).idle
  unfold construct at taken
  split at taken
  · split at taken <;> cases taken
    rename_i callback thread pc empty unmade
    have unmade : s.created fresh = false := by simpa using unmade
    have apart : ∀ fiber, s.created fiber = true → fiber ≠ fresh := by
      rintro fiber made rfl
      rw [unmade] at made
      cases made
    refine ⟨known, exclusive, ?_, ?_, ?_, ?_, ?_⟩
    · intro other
      rcases eq_or_ne other worker with rfl | different
      · refine ⟨?_, ?_, ?_, ?_⟩
        · simp [State.handled, State.goto, State.setState, State.setCbFiber,
            Pc.handled, Pc.fiber?, Pc.allows, FiberState.ended]
        · simp [State.handled, State.goto, State.setState, State.setCbFiber,
            Pc.handled, Pc.fiber?]
        · simp [State.handled, State.goto, State.setState, State.setCbFiber,
            Pc.handled, Pc.fiber?]
        · rw [goto_self]
          rw [pc] at idles
          exact idles
      · apply (staged.fit other).other
        · exact Function.update_of_ne different _ _
        · exact Function.update_of_ne different _ _
        · rfl
        · intro fiber has
          refine Function.update_of_ne (apart fiber ?_) _ _
          rcases has with handles | own
          · exact staged.known.handled other fiber handles
          · exact staged.known.cbFiber other fiber own
    · intro one other fiber borrows own
      change (Function.update s.pc worker (.swapIn ⟨fresh, .callback⟩) one).borrows =
        some fiber at borrows
      change Function.update s.cbFiber worker (some fresh) other = some fiber at own
      rcases eq_or_ne one worker with rfl | different
      · rw [Function.update_self] at borrows
        cases borrows
      · rw [Function.update_of_ne different] at borrows
        rcases eq_or_ne other worker with rfl | distinct
        · rw [Function.update_self] at own
          cases own
          exact apart fresh (staged.known.handled one fresh
            (Pc.handled_of_borrows borrows _)) rfl
        · rw [Function.update_of_ne distinct] at own
          exact staged.lent one other fiber borrows own
    · intro one other fiber own also
      change Function.update s.cbFiber worker (some fresh) one = some fiber at own
      change Function.update s.cbFiber worker (some fresh) other = some fiber at also
      have old : ∀ which, which ≠ worker →
          Function.update s.cbFiber worker (some fresh) which = some fiber →
          fiber ≠ fresh := by
        intro which different holds
        rw [Function.update_of_ne different] at holds
        exact apart fiber (staged.known.cbFiber which fiber holds)
      rcases eq_or_ne one worker with rfl | different
      · rcases eq_or_ne other one with rfl | distinct
        · rfl
        · rw [Function.update_self] at own
          exact absurd (Option.some.inj own).symm (old other distinct also)
      · rcases eq_or_ne other worker with rfl | distinct
        · rw [Function.update_self] at also
          exact absurd (Option.some.inj also).symm (old one different own)
        · rw [Function.update_of_ne different] at own
          rw [Function.update_of_ne distinct] at also
          exact staged.single one other fiber own also
    · intro fiber nobody
      change Function.update s.state fresh .INIT fiber ≠ .EXEC
      rcases eq_or_ne fiber fresh with rfl | different
      · rw [Function.update_self]
        decide
      · rw [Function.update_of_ne different]
        apply staged.rest
        intro other handles
        rcases eq_or_ne other worker with rfl | distinct
        · rw [State.handled, pc, empty] at handles
          cases handles
        · apply nobody other
          rw [← handles]
          apply handled_eq
          · exact Function.update_of_ne distinct _ _
          · exact Function.update_of_ne distinct _ _
    · intro fiber absent
      change Function.update s.created fresh true fiber = false at absent
      change Function.update s.state fresh .INIT fiber = .INIT
      rcases eq_or_ne fiber fresh with rfl | different
      · exact Function.update_self _ _ _
      · rw [Function.update_of_ne different] at absent ⊢
        exact staged.new fiber absent
  · cases taken

omit [DecidableEq W] [DecidableEq F] [DecidableEq S] in
theorem Staged.still (staged : Staged s) (known : Known next)
    (exclusive : Exclusive next) (state : next.state = s.state)
    (cbFiber : next.cbFiber = s.cbFiber)
    (handled : ∀ worker, next.handled worker = s.handled worker)
    (borrows : ∀ worker, (next.pc worker).borrows = (s.pc worker).borrows)
    (allows : ∀ worker fiber, s.handled worker = some fiber →
      (next.pc worker).allows (s.state fiber) = true)
    (idles : ∀ worker, (next.pc worker).idles (next.idleFiber worker) = true)
    (created : ∀ fiber, s.created fiber = true → next.created fiber = true) :
    Staged next := by
  refine ⟨known, exclusive, ?_, ?_, ?_, ?_, ?_⟩
  · intro worker
    refine ⟨?_, ?_, ?_, idles worker⟩
    · rw [handled, state]
      exact allows worker
    · rw [handled, borrows, cbFiber]
      exact (staged.fit worker).owned
    · rw [handled, state, cbFiber]
      exact (staged.fit worker).spare
  · intro worker other fiber
    rw [borrows, cbFiber]
    exact staged.lent worker other fiber
  · rw [cbFiber]
    exact staged.single
  · intro fiber nobody
    rw [state]
    apply staged.rest
    intro worker
    rw [← handled]
    exact nobody worker
  · intro fiber unmade
    rw [state]
    apply staged.new
    by_contra made
    rw [created fiber (by simpa using made)] at unmade
    cases unmade

theorem staged_run {op : Op W S} (staged : Staged s)
    (taken : run s worker op = some next) : Staged next := by
  have known : Known next := known_run staged.known taken
  have exclusive : Exclusive next := @exclusive_step _ _ _ _ _ _ _ s next
    (.run worker op) staged.known staged.exclusive trivial taken
  obtain ⟨created, cbFiber, -, -⟩ := run_frame taken
  obtain ⟨job, body, after, state, idleFiber, -⟩ := run_cases taken
  rcases after with pc | ⟨left, pc, running, old⟩
  · apply staged.still known exclusive state cbFiber
    · intro other
      exact handled_eq (congrFun pc other) (congrFun cbFiber other)
    · intro other
      rw [pc]
    · intro other fiber handles
      rw [pc]
      exact (staged.fit other).allowed fiber handles
    · intro other
      rw [pc, idleFiber]
      exact (staged.fit other).idle
    · intro fiber made
      rw [created]
      exact made
  · have before : (s.pc worker).job? = some job := by
      rw [body]
      rfl
    have here : next.pc worker = .leave job left := by
      rw [pc, Function.update_self]
    have others : ∀ other, other ≠ worker → next.pc other = s.pc other := by
      intro other different
      rw [pc, Function.update_of_ne different]
    apply staged.still known exclusive state cbFiber
    · intro other
      rcases eq_or_ne other worker with rfl | different
      · rw [State.handled, State.handled, here, body]
        rfl
      · exact handled_eq (others other different) (congrFun cbFiber other)
    · intro other
      rcases eq_or_ne other worker with rfl | different
      · rw [here, body]
        rfl
      · rw [others other different]
    · intro other fiber handles
      have fits := (staged.fit other).allowed fiber handles
      rcases eq_or_ne other worker with rfl | different
      · rw [body] at fits
        rw [here]
        simp only [Pc.allows, decide_eq_true_eq] at fits
        simp [Pc.allows, fits, running, old]
      · rw [others other different]
        exact fits
    · intro other
      have idles := (staged.fit other).idle
      rw [idleFiber]
      rcases eq_or_ne other worker with rfl | different
      · rw [body] at idles
        rw [here]
        exact idles
      · rw [others other different]
        exact idles
    · intro fiber made
      rw [created]
      exact made

omit [DecidableEq W] in
theorem call_created {request : Call W F S C}
    (taken : call s request = some next) {fiber : F}
    (made : s.created fiber = true) : next.created fiber = true := by
  simp only [call] at taken
  repeat' split at taken
  all_goals cases taken
  all_goals first
    | exact made
    | (change Function.update s.created _ true fiber = true
       rw [Function.update_apply]
       split
       · rfl
       · exact made)

omit [DecidableEq W] in
theorem call_cbFiber {request : Call W F S C}
    (taken : call s request = some next) : next.cbFiber = s.cbFiber := by
  simp only [call] at taken
  repeat' split at taken
  all_goals cases taken
  all_goals rfl

theorem staged_call {request : Call W F S C} (staged : Staged s)
    (taken : call s request = some next) : Staged next := by
  obtain ⟨pc, state, idleFiber, -⟩ := call_cases taken
  apply staged.still (known_call staged.known taken)
  · exact @exclusive_step _ _ _ _ _ _ _ s next (.call request) staged.known
      staged.exclusive trivial taken
  · exact state
  · exact call_cbFiber taken
  · exact call_handled taken
  · intro worker
    rw [pc]
  · intro worker fiber handles
    rw [pc]
    exact (staged.fit worker).allowed fiber handles
  · intro worker
    rw [pc, idleFiber]
    exact (staged.fit worker).idle
  · exact fun fiber => call_created taken

theorem staged_step {action : Action W F S C} (staged : Staged s)
    (resumable : Resumable s action) (taken : step s action = some next) :
    Staged next := by
  cases action with
  | work worker => exact staged_work staged resumable taken
  | construct worker fresh => exact staged_construct staged taken
  | run worker op => exact staged_run staged taken
  | call request => exact staged_call staged taken

omit [DecidableEq W] [DecidableEq F] [DecidableEq S] in
theorem Started.staged (started : Started s) : Staged s where
  known := started.known
  exclusive := by
    intro worker other fiber handled
    rw [started.idle] at handled
    cases handled
  fit := by
    intro worker
    refine ⟨?_, ?_, ?_, ?_⟩
    · intro fiber handled
      rw [started.idle] at handled
      cases handled
    · intro fiber handled
      rw [started.idle] at handled
      cases handled
    · exact fun fiber _ _ => started.state fiber
    · rw [started.pc, started.idleFiber]
      rfl
  lent := by
    intro worker other fiber borrows
    rw [started.pc] at borrows
    cases borrows
  single := by
    intro worker other fiber own
    rw [started.cbFiber] at own
    cases own
  rest := by
    intro fiber _
    rw [started.state]
    nofun
  new := fun fiber _ => started.state fiber

/-- What the assertions of `swapIn`, `reset` and of the two `Yield` functions
say, wherever a worker comes to one. -/
structure Asserted (s : State W F S C) : Prop where
  swapIn : ∀ worker job, s.pc worker = .swapIn job → s.state job.fiber ≠ .EXEC
  idle : ∀ worker, s.pc worker = .idleIn → s.idleFiber worker ≠ .EXEC
  reset : ∀ worker callback thread fiber,
    s.pc worker = .took ⟨.cb callback, thread⟩ →
    s.cbFiber worker = some fiber → (s.state fiber).resettable = true
  retire : ∀ worker job, s.pc worker = .retire job →
    (s.state job.fiber).resettable = true
  yield : ∀ worker job state, s.pc worker = .leave job state →
    s.state job.fiber = .EXEC
  idleYield : ∀ worker, s.pc worker = .idle → s.idleFiber worker = .EXEC

omit [DecidableEq W] [DecidableEq F] [DecidableEq S] in
theorem Staged.asserted (staged : Staged s) : Asserted s where
  swapIn := by
    intro worker job pc
    have fits := (staged.fit worker).allows pc rfl
    simp only [Pc.allows, Bool.and_eq_true, decide_eq_true_eq] at fits
    exact fits.1
  idle := by
    intro worker pc executing
    have idles := (staged.fit worker).idle
    rw [pc, executing] at idles
    cases idles
  reset := by
    intro worker callback thread fiber pc own
    have handled : s.handled worker = some fiber :=
      (State.handled_at pc).trans own
    have fits := (staged.fit worker).allowed fiber handled
    rw [pc] at fits
    simp only [Pc.allows, decide_eq_true_eq] at fits
    rw [fits]
    rfl
  retire := by
    intro worker job pc
    have fits := (staged.fit worker).allows pc rfl
    simp only [Pc.allows] at fits
    cases state : s.state job.fiber <;> rw [state] at fits <;> first
      | rfl
      | cases fits
  yield := by
    intro worker job left pc
    have fits := (staged.fit worker).allows pc rfl
    simp only [Pc.allows, Bool.and_eq_true, decide_eq_true_eq] at fits
    exact fits.1.1
  idleYield := by
    intro worker pc
    have idles := (staged.fit worker).idle
    rw [pc] at idles
    exact of_decide_eq_true idles

end Sylar.Scheduler
