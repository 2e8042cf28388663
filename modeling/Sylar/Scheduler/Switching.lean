import Sylar.Scheduler.Nested

namespace Sylar.Scheduler

open Logic

/-! The scheduler says where the workers stay and what state the fibers are in. -/

variable {W F S C : Type}

def Pc.stay (worker : W) : Pc W F C → Stay W F
  | .body job => .inside (.task job.fiber)
  | .leave job _ => .inside (.task job.fiber)
  | .swapOut job => .inside (.task job.fiber)
  | .landed job => .landed (.task job.fiber)
  | .idle => .inside (.idle worker)
  | _ => .home

namespace State

def stay (s : State W F S C) (worker : W) : Stay W F :=
  (s.pc worker).stay worker

theorem stay_at {s : State W F S C} {worker : W} {pc : Pc W F C}
    (at_pc : s.pc worker = pc) : s.stay worker = pc.stay worker := by
  rw [stay, at_pc]

def stateOf (s : State W F S C) : Fib W F → FiberState
  | .task fiber => s.state fiber
  | .idle worker => s.idleFiber worker

def Made (s : State W F S C) : Fib W F → Prop
  | .task fiber => s.created fiber = true
  | .idle _ => True

end State

variable [DecidableEq W] [DecidableEq F] [DecidableEq S]

variable {s after : State W F S C} {worker other : W} {fiber : F}

omit [DecidableEq F] [DecidableEq S] in
theorem stay_goto (s : State W F S C) (worker : W) (pc : Pc W F C) :
    (s.goto worker pc).stay =
      Function.update s.stay worker (pc.stay worker) := by
  funext other
  rcases eq_or_ne other worker with rfl | different
  · rw [Function.update_self, State.stay, goto_self]
  · rw [Function.update_of_ne different]
    exact congrArg (Pc.stay other) (Function.update_of_ne different _ _)

omit [DecidableEq F] [DecidableEq S] in
theorem stay_goto_self {pc : Pc W F C} (same : pc.stay worker = s.stay worker) :
    (s.goto worker pc).stay = s.stay := by
  rw [stay_goto, same, Function.update_eq_self]

omit [DecidableEq W] [DecidableEq F] [DecidableEq S] in
theorem handled_of_away (away : (s.stay worker).away? = some (.task fiber)) :
    s.handled worker = some fiber := by
  unfold State.stay at away
  unfold State.handled
  cases pc : s.pc worker <;> rw [pc] at away <;> cases away <;> rfl

omit [DecidableEq W] [DecidableEq F] [DecidableEq S] in
theorem idle_of_away (away : (s.stay worker).away? = some (.idle other)) :
    worker = other ∧ s.pc worker = .idle := by
  unfold State.stay at away
  cases pc : s.pc worker <;> rw [pc] at away <;> cases away
  exact ⟨rfl, rfl⟩

/-- The fiber that the worker is about to leave by a jump. -/
def State.leaving (s : State W F S C) (worker : W) : Option (Fib W F) :=
  match s.pc worker with
  | .swapOut job => some (.task job.fiber)
  | .idle => some (.idle worker)
  | _ => none

omit [DecidableEq W] [DecidableEq F] [DecidableEq S] in
/-- A fiber is away in one worker at most. -/
theorem Staged.apart (staged : Staged s) {fib : Fib W F}
    (here : (s.stay worker).away? = some fib)
    (there : (s.stay other).away? = some fib) : worker = other := by
  cases fib with
  | task fiber =>
      exact staged.exclusive worker other fiber (handled_of_away here)
        (handled_of_away there)
  | idle one =>
      rw [(idle_of_away here).1, (idle_of_away there).1]

omit [DecidableEq W] [DecidableEq F] [DecidableEq S] in
/-- The fiber that a worker in `run()` handles is away in no worker. -/
theorem Staged.free (staged : Staged s) (handled : s.handled worker = some fiber)
    (home : s.stay worker = .home) (one : W) :
    (s.stay one).away? ≠ some (.task fiber) := by
  intro away
  have same := staged.exclusive one worker fiber (handled_of_away away) handled
  rw [same, home] at away
  cases away

omit [DecidableEq W] [DecidableEq F] [DecidableEq S] in
/-- A fiber that was not constructed is away in no worker. -/
theorem Staged.unmade (staged : Staged s) (unmade : s.created fiber = false)
    (worker : W) : (s.stay worker).away? ≠ some (.task fiber) := by
  intro away
  have made := staged.known.handled worker fiber (handled_of_away away)
  rw [unmade] at made
  cases made

/-- The contexts are as the scheduler has the workers and the fibers. -/
def Follows (caller : Option W) (c : Contexts W F) (s : State W F S C) : Prop :=
  c.Nested caller s.stay s.stateOf s.Made

variable {caller : Option W} {c : Contexts W F}

omit [DecidableEq F] [DecidableEq S] in
/-- Workers move in `run()` only, and fibers out of their code change. -/
theorem Follows.states (follows : Follows caller c s) (staged : Staged s)
    (stay : after.stay = s.stay) (created : after.created = s.created)
    (fits : ∀ fib, (∀ worker, s.stay worker ≠ .inside fib) → ∀ one,
      Fits fib (s.stateOf fib) one → Fits fib (after.stateOf fib) one) :
    Follows caller c after := by
  have made : after.Made = s.Made := by
    funext fib
    cases fib with
    | task fiber =>
        change (after.created fiber = true) = _
        rw [created]
        rfl
    | idle one => rfl
  unfold Follows
  rw [stay, made]
  apply Contexts.Nested.states follows fits
  intro worker other fib landed inside
  have here : (s.stay worker).away? = some fib := by
    rw [landed]
    rfl
  have there : (s.stay other).away? = some fib := by
    rw [inside]
    rfl
  rw [staged.apart here there, inside] at landed
  cases landed

omit [DecidableEq F] [DecidableEq S] in
theorem Follows.still (follows : Follows caller c s) (staged : Staged s)
    (stay : after.stay = s.stay) (created : after.created = s.created)
    (state : after.state = s.state) (idleFiber : after.idleFiber = s.idleFiber) :
    Follows caller c after := by
  apply follows.states staged stay created
  intro fib _ one fit
  cases fib with
  | task fiber =>
      change Fits _ (after.state fiber) _
      rw [state]
      exact fit
  | idle worker =>
      change Fits _ (after.idleFiber worker) _
      rw [idleFiber]
      exact fit

omit [DecidableEq S] in
theorem Follows.setState (follows : Follows caller c s) (staged : Staged s)
    {pc : Pc W F C} {state : FiberState}
    (same : pc.stay worker = s.stay worker)
    (fits : (∀ worker, s.stay worker ≠ .inside (.task fiber)) →
      ∀ one : Suspended W F, Fits (.task fiber) (s.state fiber) one →
        Fits (.task fiber) state one) :
    Follows caller c ((s.setState fiber state).goto worker pc) := by
  apply follows.states staged
  · exact stay_goto_self same
  · rfl
  · intro fib outside one fit
    cases fib with
    | idle worker => exact fit
    | task one =>
        change Fits _ (Function.update s.state fiber state one) _
        rcases eq_or_ne one fiber with rfl | different
        · rw [Function.update_self]
          exact fits outside _ fit
        · rw [Function.update_of_ne different]
          exact fit

omit [DecidableEq F] [DecidableEq S] in
theorem Follows.setIdle (follows : Follows caller c s) (staged : Staged s)
    {state : FiberState}
    (fits : (∀ other, s.stay other ≠ .inside (.idle worker)) →
      ∀ one : Suspended W F, Fits (.idle worker) (s.idleFiber worker) one →
        Fits (.idle worker) state one) :
    Follows caller c
      { s with idleFiber := Function.update s.idleFiber worker state } := by
  apply follows.states staged
  · rfl
  · rfl
  · intro fib outside one fit
    cases fib with
    | task fiber => exact fit
    | idle other =>
        change Fits _ (Function.update s.idleFiber worker state other) _
        rcases eq_or_ne other worker with rfl | different
        · rw [Function.update_self]
          exact fits outside _ fit
        · rw [Function.update_of_ne different]
          exact fit

omit [DecidableEq S] in
theorem Follows.make (follows : Follows caller c s)
    (free : ∀ worker, (s.stay worker).away? ≠ some (.task fiber))
    (stay : after.stay = s.stay) (init : after.state fiber = .INIT)
    (state : ∀ one, one ≠ fiber → after.state one = s.state one)
    (idleFiber : after.idleFiber = s.idleFiber)
    (created : ∀ one, one ≠ fiber → after.created one = s.created one) :
    Follows caller (c.make (.task fiber)) after := by
  unfold Follows
  rw [stay]
  apply Contexts.Nested.make follows free init
  · intro fib different
    cases fib with
    | task one =>
        apply state
        rintro rfl
        exact different rfl
    | idle one => exact congrFun idleFiber one
  · intro fib different made
    cases fib with
    | task one =>
        change s.created one = true
        rw [← created one]
        · exact made
        · rintro rfl
          exact different rfl
    | idle one => trivial

omit [DecidableEq F] [DecidableEq S] in
theorem Follows.returns {fib : Fib W F} (follows : Follows caller c s)
    (inside : s.stay worker = .inside fib)
    (unentered : caller = some worker → c.entered worker = false) :
    c.Returns caller worker fib := by
  rcases (follows.poised worker).inside fib inside with
    ⟨called, entered⟩ | returns
  · rw [unentered called] at entered
    cases entered
  · exact returns

/-! One step of a worker. -/

omit [DecidableEq S] in
theorem follows_enter {job : Job W F} (follows : Follows caller c s)
    (staged : Staged s) (pc : s.pc worker = .enter job)
    (running : caller = some worker → c.phase = .running) :
    Follows caller (c.swapIn caller worker (.task job.fiber))
      (s.goto worker (.body job)) := by
  have home : s.stay worker = .home := State.stay_at pc
  have handled : s.handled worker = some job.fiber := State.handled_at pc
  have executing := (staged.fit worker).allows pc rfl
  have alive : (s.state job.fiber).ended = false := by
    rw [of_decide_eq_true executing]
    rfl
  unfold Follows
  rw [stay_goto]
  exact Contexts.Nested.swapIn follows home (staged.free handled home) running
    (staged.known.handled worker job.fiber handled) alive

omit [DecidableEq S] in
theorem follows_swapOut {job : Job W F} {final : Bool}
    (follows : Follows caller c s) (staged : Staged s)
    (pc : s.pc worker = .swapOut job)
    (ends : final = (s.state job.fiber).ended)
    (unentered : caller = some worker → c.entered worker = false)
    (running : caller = some worker → c.phase = .running) :
    Follows caller (c.swapOut caller worker (.task job.fiber) final)
      (s.goto worker (.landed job)) := by
  have inside : s.stay worker = .inside (.task job.fiber) := State.stay_at pc
  have allowed := (staged.fit worker).allows pc rfl
  unfold Follows
  rw [stay_goto]
  apply Contexts.Nested.swapOut follows inside
    (follows.returns inside unentered) unentered running
  change Fits _ (s.state job.fiber) _
  rw [ends]
  cases state : s.state job.fiber <;> rw [state] at allowed <;> first
    | rfl
    | cases allowed

omit [DecidableEq S] in
theorem follows_landed {job : Job W F} (follows : Follows caller c s)
    (pc : s.pc worker = .landed job) :
    Follows caller (c.store worker (.task job.fiber))
      (s.goto worker (.returned job)) := by
  unfold Follows
  rw [stay_goto]
  apply Contexts.Nested.store follows
  exact State.stay_at pc

omit [DecidableEq S] in
theorem follows_idleIn (follows : Follows caller c s) (staged : Staged s)
    (pc : s.pc worker = .idleIn)
    (running : caller = some worker → c.phase = .running) :
    Follows caller (c.swapIn caller worker (.idle worker))
      ({ s with
        idleFiber := Function.update s.idleFiber worker .EXEC }.goto worker
          .idle) := by
  have home : s.stay worker = .home := State.stay_at pc
  have free : ∀ one, (s.stay one).away? ≠ some (.idle worker) := by
    intro one away
    obtain ⟨rfl, idle⟩ := idle_of_away away
    rw [pc] at idle
    cases idle
  have alive : (s.idleFiber worker).ended = false := by
    have idles := (staged.fit worker).idle
    rw [pc] at idles
    cases state : s.idleFiber worker <;> rw [state] at idles <;> first
      | rfl
      | cases idles
  have executing : Follows caller c
      { s with idleFiber := Function.update s.idleFiber worker .EXEC } :=
    follows.setIdle staged fun _ _ fit => fit.resumes alive
  unfold Follows
  rw [stay_goto]
  apply Contexts.Nested.swapIn executing home free running trivial
  change (Function.update s.idleFiber worker .EXEC worker).ended = false
  rw [Function.update_self]
  rfl

omit [DecidableEq S] in
theorem follows_idle (follows : Follows caller c s) (staged : Staged s)
    (pc : s.pc worker = .idle)
    (unentered : caller = some worker → c.entered worker = false)
    (running : caller = some worker → c.phase = .running) :
    Follows caller
      ((c.swapOut caller worker (.idle worker) s.stopping).store worker
        (.idle worker))
      ({ s with
        idleFiber := Function.update s.idleFiber worker
          (if s.stopping then .TERM else .HOLD) }.goto worker .idleOut) := by
  have inside : s.stay worker = .inside (.idle worker) := State.stay_at pc
  have returns := follows.returns inside unentered
  have leaving : Follows caller c
      { s with
        idleFiber := Function.update s.idleFiber worker
          (if s.stopping then .TERM else .HOLD) } :=
    follows.setIdle staged fun outside => absurd inside (outside worker)
  have leaves : Fits (.idle worker : Fib W F)
      (Function.update s.idleFiber worker
        (if s.stopping then .TERM else .HOLD) worker)
      (if s.stopping then .ended (.idle worker)
        else .swapOut (.idle worker)) := by
    rw [Function.update_self]
    cases s.stopping <;> rfl
  have landed := Contexts.Nested.swapOut leaving inside returns unentered
    running leaves
  have stored := landed.store (Function.update_self _ _ _)
  rw [Function.update_idem] at stored
  unfold Follows
  rw [stay_goto]
  exact stored

namespace Threads

variable {t next : Threads W F S C}

structure Sound (caller : Option W) (t : Threads W F S C) : Prop where
  staged : Staged t.scheduler
  follows : Follows caller t.contexts t.scheduler
  final : ∀ worker job, t.scheduler.pc worker = .swapOut job →
    t.final worker = (t.scheduler.state job.fiber).ended

/-- On the caller thread, the worker leaves no fiber that came in through
`MainFunc`. -/
def Backed (caller : Option W) (t : Threads W F S C) :
    Action W F S C → Prop
  | .work worker => caller = some worker →
      (t.scheduler.leaving worker).isSome = true →
        t.contexts.entered worker = false
  | _ => True

instance (caller : Option W) (t : Threads W F S C) :
    (action : Action W F S C) → Decidable (t.Backed caller action)
  | .work worker => inferInstanceAs (Decidable (caller = some worker →
      (t.scheduler.leaving worker).isSome = true →
        t.contexts.entered worker = false))
  | .construct _ _ => inferInstanceAs (Decidable True)
  | .run _ _ => inferInstanceAs (Decidable True)
  | .call _ => inferInstanceAs (Decidable True)

/-- At these places a worker changes no fiber and no context. -/
def plain : Pc W F C → Bool
  | .took ⟨.cb _, _⟩ => false
  | .mark _ => false
  | .enter _ => false
  | .leave _ _ => false
  | .swapOut _ => false
  | .landed _ => false
  | .hold _ => false
  | .retire _ => false
  | .idleIn => false
  | .idle => false
  | .idleOut => false
  | _ => true

omit [DecidableEq S] in
theorem act_plain (quiet : plain (t.scheduler.pc worker) = true) :
    t.act caller (.work worker) = t.contexts := by
  simp only [act]
  split <;> first
    | rfl
    | (rename_i pc
       rw [pc] at quiet
       cases quiet)

omit [DecidableEq S] in
theorem work_plain (quiet : plain (s.pc worker) = true)
    (taken : work s worker = some after) :
    after.stay = s.stay ∧ after.created = s.created ∧
      after.state = s.state ∧ after.idleFiber = s.idleFiber := by
  have home : ∀ pc : Pc W F C, s.pc worker = pc → pc.stay worker = .home →
      s.stay worker = .home := by
    rintro _ rfl home
    exact home
  cases pc : s.pc worker with
  | took ft =>
      obtain ⟨task, thread⟩ := ft
      cases task with
      | fiber own =>
          simp only [work, pc] at taken
          split at taken <;> cases taken
          all_goals exact ⟨stay_goto_self (home _ pc rfl).symm, rfl, rfl, rfl⟩
      | cb callback =>
          rw [pc] at quiet
          cases quiet
  | _ =>
      rw [pc] at quiet
      cases quiet
      all_goals simp only [work, pc] at taken
      all_goals repeat' split at taken
      all_goals cases taken
      all_goals exact ⟨stay_goto_self (home _ pc rfl).symm, rfl, rfl, rfl⟩

omit [DecidableEq S] in
theorem Sound.follows_work (sound : t.Sound caller)
    (backed : t.Backed caller (.work worker))
    (running : caller = some worker → t.contexts.phase = .running)
    (taken : work t.scheduler worker = some after) :
    Follows caller (t.act caller (.work worker)) after := by
  obtain ⟨staged, follows, final⟩ := sound
  have fit := staged.fit worker
  have home : ∀ pc : Pc W F C, t.scheduler.pc worker = pc →
      pc.stay worker = .home → t.scheduler.stay worker = .home :=
    fun pc at_pc home => (State.stay_at at_pc).trans home
  have unentered : (t.scheduler.leaving worker).isSome = true →
      caller = some worker → t.contexts.entered worker = false :=
    fun leaves called => backed called leaves
  have handles : ∀ job, (t.scheduler.pc worker).job? = some job →
      t.scheduler.handled worker = some job.fiber :=
    fun job runs => Pc.handled_of_job runs _
  by_cases quiet : plain (t.scheduler.pc worker) = true
  · obtain ⟨stay, created, state, idleFiber⟩ := work_plain quiet taken
    rw [act_plain quiet]
    exact follows.still staged stay created state idleFiber
  cases pc : t.scheduler.pc worker with
  | took ft =>
      obtain ⟨task, thread⟩ := ft
      cases task with
      | fiber own =>
          rw [pc] at quiet
          exact absurd rfl quiet
      | cb callback =>
          simp only [work, pc] at taken
          simp only [act, pc]
          split at taken
          · cases taken
          · rename_i own current
            split at taken <;> cases taken
            have handled : t.scheduler.handled worker = some own :=
              (State.handled_at pc).trans current
            simp only [current]
            apply follows.make (staged.free handled (home _ pc rfl))
            · exact stay_goto_self (home _ pc rfl).symm
            · exact Function.update_self _ _ _
            · exact fun _ different => Function.update_of_ne different _ _
            · rfl
            · exact fun _ _ => rfl
  | mark job =>
      have allowed := fit.allows pc rfl
      simp only [Pc.allows, Bool.and_eq_true, Bool.not_eq_true'] at allowed
      simp only [work, pc] at taken
      simp only [act, pc]
      cases taken
      exact follows.setState staged (home _ pc rfl).symm fun _ _ fit =>
        fit.resumes allowed.2
  | enter job =>
      simp only [work, pc] at taken
      simp only [act, pc]
      cases taken
      exact follows_enter follows staged pc running
  | leave job left =>
      have inside : t.scheduler.stay worker = .inside (.task job.fiber) :=
        State.stay_at pc
      simp only [work, pc] at taken
      simp only [act, pc]
      split at taken <;> cases taken
      exact follows.setState staged inside.symm fun outside =>
        absurd inside (outside worker)
  | swapOut job =>
      have leaves : (t.scheduler.leaving worker).isSome = true := by
        rw [State.leaving, pc]
        rfl
      simp only [work, pc] at taken
      simp only [act, pc]
      cases taken
      exact follows_swapOut follows staged pc (final worker job pc)
        (unentered leaves) running
  | landed job =>
      simp only [work, pc] at taken
      simp only [act, pc]
      cases taken
      exact follows_landed follows pc
  | hold job =>
      have allowed := fit.allows pc rfl
      simp only [Pc.allows, decide_eq_true_eq] at allowed
      have held : Function.update t.scheduler.state job.fiber .HOLD =
          t.scheduler.state := by
        rw [← allowed]
        exact Function.update_eq_self _ _
      simp only [work, pc] at taken
      simp only [act, pc]
      split at taken <;> cases taken
      all_goals
        exact follows.still staged (stay_goto_self (home _ pc rfl).symm) rfl held
          rfl
  | retire job =>
      have handled := handles job (by rw [pc]; rfl)
      simp only [work, pc] at taken
      simp only [act, pc]
      split at taken <;> cases taken
      apply follows.make (staged.free handled (home _ pc rfl))
      · exact stay_goto_self (home _ pc rfl).symm
      · exact Function.update_self _ _ _
      · exact fun _ different => Function.update_of_ne different _ _
      · rfl
      · exact fun _ _ => rfl
  | idleIn =>
      simp only [work, pc] at taken
      simp only [act, pc]
      split at taken <;> cases taken
      exact follows_idleIn follows staged pc running
  | idle =>
      have leaves : (t.scheduler.leaving worker).isSome = true := by
        rw [State.leaving, pc]
        rfl
      simp only [work, pc] at taken
      simp only [act, pc]
      cases taken
      exact follows_idle follows staged pc (unentered leaves) running
  | idleOut =>
      have idles := fit.idle
      rw [pc] at idles
      have held : Function.update t.scheduler.idleFiber worker
          (if (t.scheduler.idleFiber worker).ended then
            t.scheduler.idleFiber worker
          else .HOLD) = t.scheduler.idleFiber := by
        apply Function.update_eq_self_iff.mpr
        cases state : t.scheduler.idleFiber worker <;> rw [state] at idles <;>
          first
            | rfl
            | cases idles
      simp only [work, pc] at taken
      simp only [act, pc]
      cases taken
      exact follows.still staged (stay_goto_self (home _ pc rfl).symm) rfl rfl
        held
  | _ =>
      rw [pc] at quiet
      exact absurd rfl quiet

omit [DecidableEq F] in
theorem follows_run {op : Op W S} (follows : Follows caller c s)
    (staged : Staged s) (taken : run s worker op = some after) :
    Follows caller c after := by
  obtain ⟨job, body, moved, state, idleFiber, -⟩ := run_cases taken
  refine follows.still staged ?_ (run_frame taken).1 state idleFiber
  funext other
  rw [State.stay, State.stay]
  rcases moved with pc | ⟨left, pc, -, -⟩
  · rw [pc]
  · rw [pc]
    rcases eq_or_ne other worker with rfl | different
    · rw [Function.update_self, body]
      rfl
    · rw [Function.update_of_ne different]

omit [DecidableEq S] in
theorem follows_construct {fresh : F} (follows : Follows caller c s)
    (staged : Staged s) (taken : construct s worker fresh = some after) :
    Follows caller (c.make (.task fresh)) after := by
  unfold construct at taken
  split at taken
  · rename_i callback thread pc empty
    split at taken <;> cases taken
    rename_i unmade
    apply follows.make (staged.unmade (by simpa using unmade))
    · apply stay_goto_self
      change _ = (s.pc worker).stay worker
      rw [pc]
      rfl
    · exact Function.update_self _ _ _
    · exact fun _ different => Function.update_of_ne different _ _
    · rfl
    · exact fun _ different => Function.update_of_ne different _ _
  · cases taken

theorem follows_call {request : Call W F S C}
    (follows : Follows caller t.contexts t.scheduler)
    (staged : Staged t.scheduler)
    (taken : call t.scheduler request = some after) :
    Follows caller (t.act caller (.call request)) after := by
  obtain ⟨pc, state, idleFiber, -⟩ := call_cases taken
  have stay : after.stay = t.scheduler.stay := by
    funext worker
    rw [State.stay, State.stay, pc]
  cases request with
  | create fiber =>
      simp only [call] at taken
      split at taken <;> cases taken
      rename_i unmade
      have unmade : t.scheduler.created fiber = false := by simpa using unmade
      apply follows.make (staged.unmade unmade) stay
      · exact staged.new fiber unmade
      · exact fun _ _ => rfl
      · rfl
      · exact fun _ different => Function.update_of_ne different _ _
  | _ =>
      refine follows.still staged stay ?_ state idleFiber
      simp only [call] at taken
      repeat' split at taken
      all_goals cases taken
      all_goals rfl

omit [DecidableEq S] in
theorem work_swapOut {job : Job W F} (taken : work s worker = some after)
    (leaves : after.pc worker = .swapOut job) :
    ∃ left, s.pc worker = .leave job left ∧ after.state job.fiber = left := by
  unfold work at taken
  repeat' split at taken
  all_goals cases taken
  all_goals rw [goto_self] at leaves
  all_goals cases leaves
  rename_i left pc _
  exact ⟨left, pc, Function.update_self _ _ _⟩

omit [DecidableEq F] [DecidableEq S] in
theorem leave_of_ne (different : other ≠ worker) :
    t.leave (.work worker) other = t.final other := by
  cases pc : t.scheduler.pc worker with
  | leave job left =>
      simp only [leave, pc]
      exact Function.update_of_ne different _ _
  | _ => simp only [leave, pc]

omit [DecidableEq S] in
theorem construct_unmade {fresh : F}
    (taken : construct s worker fresh = some after) :
    s.created fresh = false := by
  unfold construct at taken
  split at taken
  · split at taken <;> cases taken
    rename_i unmade
    simpa using unmade
  · cases taken

omit [DecidableEq S] in
theorem Sound.final_work (sound : t.Sound caller)
    (taken : work t.scheduler worker = some after) (other : W) (job : Job W F)
    (leaves : after.pc other = .swapOut job) :
    t.leave (.work worker) other = (after.state job.fiber).ended := by
  rcases eq_or_ne other worker with rfl | different
  · obtain ⟨left, pc, state⟩ := work_swapOut taken leaves
    simp only [leave, pc]
    rw [Function.update_self, state]
  · rw [(work_other taken different).1] at leaves
    rw [leave_of_ne different, sound.final other job leaves]
    have turn := work_turn sound.staged taken
    rw [turn.others]
    intro handled
    apply different
    apply sound.staged.exclusive other worker job.fiber _ handled
    rw [State.handled, leaves]
    rfl

theorem Sound.final_step {action : Action W F S C} (sound : t.Sound caller)
    (taken : Scheduler.step t.scheduler action = some after) (other : W)
    (job : Job W F) (leaves : after.pc other = .swapOut job) :
    t.leave action other = (after.state job.fiber).ended := by
  cases action with
  | work worker => exact sound.final_work taken other job leaves
  | run worker op =>
      obtain ⟨_, _, moved, state, -⟩ := run_cases taken
      rw [state]
      apply sound.final other job
      rcases moved with pc | ⟨left, pc, -, -⟩
      · rw [← pc]
        exact leaves
      · rw [pc, Function.update_apply] at leaves
        split at leaves
        · cases leaves
        · exact leaves
  | construct worker fresh =>
      obtain ⟨-, pc, state, -⟩ := construct_cases taken
      rw [pc, Function.update_apply] at leaves
      split at leaves
      · cases leaves
      · rw [state, Function.update_of_ne]
        · exact sound.final other job leaves
        · rintro rfl
          have made := sound.staged.known.handled other job.fiber (by
            rw [State.handled, leaves]
            rfl)
          rw [construct_unmade taken] at made
          cases made
  | call request =>
      obtain ⟨pc, state, -⟩ := call_cases taken
      rw [pc] at leaves
      rw [state]
      exact sound.final other job leaves

/-- A scan takes no fiber that a worker has to do with, and no worker leaves a
fiber that came in through `MainFunc` on the caller thread. -/
def Nestable (caller : Option W) (t : Threads W F S C) : Event W F S C → Prop
  | .act action => Resumable t.scheduler action ∧ t.Backed caller action
  | _ => True

instance [Fintype W] (caller : Option W) (t : Threads W F S C) :
    (event : Event W F S C) → Decidable (t.Nestable caller event)
  | .act action => inferInstanceAs
      (Decidable (Resumable t.scheduler action ∧ t.Backed caller action))
  | .call => inferInstanceAs (Decidable True)
  | .back => inferInstanceAs (Decidable True)

theorem Sound.step {event : Event W F S C} (sound : t.Sound caller)
    (nestable : t.Nestable caller event)
    (taken : t.step caller event = some next) : next.Sound caller := by
  cases event with
  | act action =>
      obtain ⟨resumable, backed⟩ := nestable
      simp only [Threads.step] at taken
      split at taken
      · cases taken
      · rename_i present
        obtain ⟨after, stepped, rfl⟩ := Option.map_eq_some_iff.mp taken
        refine ⟨staged_step sound.staged resumable stepped, ?_,
          sound.final_step stepped⟩
        cases action with
        | work worker =>
            apply sound.follows_work backed _ stepped
            intro called
            by_contra elsewhere
            apply present
            refine .inr ⟨?_, called.symm, elsewhere⟩
            rw [called]
            nofun
        | run worker op => exact follows_run sound.follows sound.staged stepped
        | construct worker fresh =>
            exact follows_construct sound.follows sound.staged stepped
        | call request => exact follows_call sound.follows sound.staged stepped
  | call =>
      simp only [Threads.step] at taken
      split at taken
      · cases taken
      · rename_i worker
        split at taken <;> cases taken
        rename_i ready
        exact ⟨sound.staged, Contexts.Nested.call sound.follows rfl ready.2.1,
          sound.final⟩
  | back =>
      simp only [Threads.step] at taken
      split at taken
      · cases taken
      · rename_i worker
        split at taken
        · rename_i exited
          split at taken <;> cases taken
          rename_i ready
          refine ⟨sound.staged, ?_, sound.final⟩
          apply Contexts.Nested.back sound.follows rfl ready.2
          rw [State.stay, exited]
          rfl
        · cases taken

omit [DecidableEq F] [DecidableEq S] in
theorem Opened.sound (opened : t.Opened caller) : t.Sound caller where
  staged := opened.scheduler.staged
  follows := by
    have home : ∀ worker, t.scheduler.stay worker = .home := by
      intro worker
      rw [State.stay, opened.scheduler.pc]
      rfl
    refine ⟨⟨?_, ?_⟩, opened.astray, ?_, ?_, ?_⟩
    · exact fun context _ => opened.jumps context
    · intro context
      rw [opened.jumps]
      exact Nat.zero_le 1
    · intro fib made _
      cases fib with
      | task fiber =>
          change t.scheduler.created fiber = true at made
          rw [opened.scheduler.created] at made
          cases made
      | idle worker =>
          refine ⟨_, opened.idle worker, ?_⟩
          change Fits _ (t.scheduler.idleFiber worker) _
          rw [opened.scheduler.idleFiber]
          rfl
    · intro worker
      rw [home]
      refine ⟨nofun, nofun, ?_⟩
      intro entered
      rw [opened.entered] at entered
      cases entered
    · intro worker called
      rw [home]
      have present : caller ≠ none := by
        rw [called]
        nofun
      have outside := opened.phase
      refine ⟨fun _ => rfl, fun _ => opened.root present, ?_, ?_⟩
      · intro running
        rw [outside] at running
        cases running
      · intro running
        rw [outside] at running
        cases running
  final := by
    intro worker job leaves
    rw [opened.scheduler.pc] at leaves
    cases leaves

theorem sound_run
    (reached : Reach (Opened caller) (StepWhen (step caller) (Nestable caller))
      t) : t.Sound caller :=
  reached.invariant (fun _ => Opened.sound) fun _ _ _ sound taken =>
    sound.step taken.1 taken.2

omit [DecidableEq W] [DecidableEq F] [DecidableEq S] in
theorem inside_of_leaving {fib : Fib W F}
    (leaves : t.scheduler.leaving worker = some fib) :
    t.scheduler.stay worker = .inside fib := by
  unfold State.leaving at leaves
  unfold State.stay
  split at leaves <;> rename_i pc <;> cases leaves <;> rw [pc] <;> rfl

/-- A scan takes a fiber only when no worker has to do with it. -/
def Resumes (t : Threads W F S C) : Event W F S C → Prop
  | .act action => Resumable t.scheduler action
  | _ => True

instance [Fintype W] (t : Threads W F S C) :
    (event : Event W F S C) → Decidable (t.Resumes event)
  | .act action => inferInstanceAs (Decidable (Resumable t.scheduler action))
  | .call => inferInstanceAs (Decidable True)
  | .back => inferInstanceAs (Decidable True)

theorem switches_nested
    (reached : Reach (Opened (none : Option W))
      (StepWhen (step none) Resumes) t) :
    (∀ context, t.contexts.pool.jumps context ≤ 1) ∧
      t.contexts.astray = false ∧
      (∀ worker fib, t.scheduler.leaving worker = some fib →
        t.contexts.Returns none worker fib) ∧
      Asserted t.scheduler := by
  have nestable : ∀ (t : Threads W F S C) event next,
      StepWhen (step none) Resumes t event next →
        StepWhen (step none) (Nestable none) t event next := by
    rintro t event next ⟨resumes, taken⟩
    refine ⟨?_, taken⟩
    cases event with
    | act action =>
        refine ⟨resumes, ?_⟩
        cases action with
        | work worker => exact nofun
        | _ => trivial
    | _ => trivial
  have sound := sound_run (reached.mono nestable)
  refine ⟨sound.follows.sound.once, sound.follows.astray, ?_,
    sound.staged.asserted⟩
  intro worker fib leaves
  exact sound.follows.returns (inside_of_leaving leaves) nofun

/-- Nothing is queued; the root fiber is in the first context. -/
def opening : Threads Bool Nat Unit Unit where
  scheduler := fresh
  contexts := {
    pool := {
      next := 3
      jumps := fun _ => 0
      holds := fun context => match context with
        | 0 => .callerMain
        | 1 => .main (.idle false)
        | _ => .main (.idle true) }
    ctx := fun fib => if fib = .idle false then 1 else 2
    threadCtx := fun _ => 0
    rootCtx := 0
    transfer := fun _ => 0
    phase := .outside
    entered := fun _ => false
    resumed := fun _ => 0
    astray := false }
  final := fun _ => false

theorem opening_opened (caller : Option Bool) : opening.Opened caller where
  scheduler := {
    toInitial := fresh_initial
    state := fun _ => rfl
    idleFiber := fun _ => rfl
    activeThreadCount := rfl
    idleThreadCount := rfl }
  jumps := fun _ => rfl
  idle := by
    intro worker
    cases worker with
    | false => exact ⟨by decide, rfl, rfl⟩
    | true => exact ⟨by decide, rfl, rfl⟩
  root := fun _ => ⟨by decide, rfl, rfl⟩
  phase := rfl
  entered := fun _ => rfl
  astray := rfl

/-- A fiber starts on one worker, which it leaves in `YieldToReady`. -/
def yields : List (Event Bool Nat Unit Unit) :=
  [.act (.call (.create 0)), .act (.call (.schedule (.fiber 0) none))] ++
    List.replicate 5 (.act (.work false)) ++ [.act (.run false .yieldToReady)] ++
    List.replicate 6 (.act (.work false))

/-- The other worker resumes the fiber, which comes to its end there. -/
def ends : List (Event Bool Nat Unit Unit) :=
  List.replicate 5 (.act (.work true)) ++
    [.act (.run true .finish), .act (.work true)]

theorem switches_nested_resumed :
    ∃ t : Threads Bool Nat Unit Unit,
      t.scheduler.leaving true = some (.task 0) ∧
      t.scheduler.state 0 = .TERM ∧
      (∀ context, t.contexts.pool.jumps context ≤ 1) ∧
      t.contexts.Returns none true (.task 0) := by
  obtain ⟨t, ran, leaves, ended⟩ : ∃ t,
      exec (guarded (step none) Resumes) opening (yields ++ ends) = some t ∧
      t.scheduler.leaving true = some (.task 0) ∧
      t.scheduler.state 0 = .TERM := ⟨_, rfl, rfl, rfl⟩
  obtain ⟨once, -, returns, -⟩ := switches_nested
    (reach_guarded (.start opening (opening_opened none)) ran)
  exact ⟨t, leaves, ended, once, returns true (.task 0) leaves⟩

theorem caller_nested {worker : W}
    (reached : Reach (Opened (some worker))
      (StepWhen (step (some worker)) (Nestable (some worker))) t) :
    (∀ context, t.contexts.pool.jumps context ≤ 1) ∧
      t.contexts.astray = false ∧
      (∀ one fib, t.scheduler.leaving one = some fib →
        (t.contexts.Returns (some worker) one fib ↔
          ¬ (one = worker ∧ t.contexts.entered one = true))) ∧
      (t.contexts.phase = .running → t.scheduler.pc worker = .exited →
        t.contexts.pool.Live (t.contexts.threadCtx worker) .call) := by
  have sound := sound_run reached
  have follows := sound.follows
  refine ⟨follows.sound.once, follows.astray, ?_, ?_⟩
  · intro one fib leaves
    have inside := inside_of_leaving leaves
    constructor
    · rintro returns ⟨rfl, entered⟩
      have rooted := follows.rooted one rfl
      have running : t.contexts.phase = .running := by
        by_contra outside
        rw [rooted.home outside] at inside
        cases inside
      have used := rooted.used running (.inr entered)
      have unused := returns.live.unused
      rw [Contexts.mainCtx, if_pos rfl] at unused
      rw [unused] at used
      cases used
    · intro unentered
      apply follows.returns inside
      rintro ⟨⟩
      simpa using unentered
  · intro running exited
    apply Contexts.Nested.returned follows rfl running
    rw [State.stay, exited]
    rfl

/-- The caller thread resumes a fiber that started on the other worker. -/
theorem caller_nested_resumed :
    ∃ t : Threads Bool Nat Unit Unit,
      t.scheduler.leaving true = some (.task 0) ∧
      (∀ context, t.contexts.pool.jumps context ≤ 1) ∧
      t.contexts.Returns (some true) true (.task 0) := by
  obtain ⟨t, ran, leaves, entered⟩ : ∃ t,
      exec (guarded (step (some true)) (Nestable (some true))) opening
        (yields ++ [.act (.call .stop), .call] ++ ends) = some t ∧
      t.scheduler.leaving true = some (.task 0) ∧
      t.contexts.entered true = false := ⟨_, rfl, rfl, rfl⟩
  obtain ⟨once, -, returns, -⟩ := caller_nested
    (reach_guarded (.start opening (opening_opened (some true))) ran)
  refine ⟨t, leaves, once, (returns true (.task 0) leaves).mpr ?_⟩
  rintro ⟨-, through⟩
  rw [entered] at through
  cases through

/-- The caller thread runs one callback to its end: `MainFunc` stored the context
of `run()` in `t_threadFiber`, and `swapOut` jumps to the one in `m_rootFiber`,
which `call` has used. -/
theorem caller_astray :
    ∃ t : Threads Bool Nat Unit Unit,
      Reach (Opened (some true)) (StepWhen (step (some true)) Resumes) t ∧
      t.contexts.pool.jumps 0 = 2 ∧ t.contexts.astray = true := by
  obtain ⟨t, ran, twice, astray⟩ : ∃ t,
      exec (guarded (step (some true)) Resumes) opening
        [.act (.call (.schedule (.cb ()) none)), .act (.call .stop), .call,
          .act (.work true), .act (.construct true 0), .act (.work true),
          .act (.work true), .act (.work true), .act (.run true .finish),
          .act (.work true), .act (.work true)] = some t ∧
      t.contexts.pool.jumps 0 = 2 ∧ t.contexts.astray = true :=
    ⟨_, rfl, rfl, rfl⟩
  exact ⟨t, reach_guarded (.start opening (opening_opened (some true))) ran,
    twice, astray⟩

end Threads

end Sylar.Scheduler
