import Sylar.Scheduler.Conservation

namespace Sylar.Scheduler

open Logic

/-! What `stopping()` says about the work that is left. It is exact while no
worker puts a fiber back: `m_activeThreadCount` is lowered before the fiber that
yielded to `READY` is in the queue again. -/

variable {W F S C : Type} [DecidableEq W] [DecidableEq F] [DecidableEq S]

namespace State

/-- The worker has lowered `m_activeThreadCount` for a fiber that yielded to
`READY`, and has not scheduled it again. -/
def requeues (s : State W F S C) (worker : W) : Bool :=
  match s.pc worker with
  | .testReady job => s.state job.fiber == .READY
  | .requeue _ => true
  | _ => false

/-- The worker has taken a task that is neither finished nor put back, nor put
aside as `HOLD`. -/
def unfinished (s : State W F S C) (worker : W) : Bool :=
  (s.pc worker).active || s.requeues worker

/-- No runnable work is left. -/
def Done (s : State W F S C) : Prop :=
  s.fibers = [] ∧ ∀ worker, s.unfinished worker = false

omit [DecidableEq W] [DecidableEq F] [DecidableEq S] in
theorem stopping_eq_true {s : State W F S C} :
    s.stopping = true ↔
      s.stopFlags = true ∧ s.fibers = [] ∧ s.activeThreadCount = 0 := by
  simp [stopping, and_assoc]

end State

omit [DecidableEq W] [DecidableEq F] [DecidableEq S] in
theorem Counted.inactive [Fintype W] {s : State W F S C} (counted : Counted s)
    (stopping : s.stopping = true) (worker : W) :
    (s.pc worker).active = false := by
  obtain ⟨-, -, none_active⟩ := State.stopping_eq_true.mp stopping
  rw [counted, tally_eq_zero] at none_active
  exact none_active worker

/-- In every state a run reaches, an answer of `stopping()` that is true means
that no runnable work is left, if and only if no worker is about to put a fiber
back. -/
theorem stopping_done_iff [Fintype W] {a : Accounts W F S C}
    (reached : Reach Accounts.Opened (StepOf Accounts.step) a)
    (stopping : a.scheduler.stopping = true) :
    a.scheduler.Done ↔ ∀ worker, a.scheduler.requeues worker = false := by
  have inactive := (Accounts.counted_run reached).inactive stopping
  obtain ⟨-, empty, -⟩ := State.stopping_eq_true.mp stopping
  constructor
  · rintro ⟨-, finished⟩ worker
    have here := finished worker
    rw [State.unfinished, inactive] at here
    exact here
  · intro settled
    refine ⟨empty, ?_⟩
    intro worker
    rw [State.unfinished, inactive, settled]
    rfl

/-- A callback has finished on one worker while the other idles. -/
theorem stopping_done_iff_finished :
    ∃ a : Accounts Bool Nat Unit Unit, a.scheduler.stopping = true ∧
      a.scheduler.pc false = .testReady ⟨0, .callback⟩ ∧
      a.scheduler.Done := by
  obtain ⟨a, ran, stopping, place, settled⟩ : ∃ a, exec Accounts.step
      Accounts.opening
      [.act (.call (.schedule (.cb ()) none)), .act (.work false),
        .act (.construct false 0), .act (.work false), .act (.work false),
        .act (.work false), .act (.run false .finish), .act (.work false),
        .act (.work false), .act (.work false), .act (.call .stop),
        .act (.work false)] = some a ∧
      a.scheduler.stopping = true ∧
      a.scheduler.pc false = .testReady ⟨0, .callback⟩ ∧
      ∀ worker, a.scheduler.requeues worker = false :=
    ⟨_, rfl, rfl, rfl, by decide⟩
  exact ⟨a, stopping, place,
    (stopping_done_iff
      (reach_exec (.start _ Accounts.opening_opened) ran) stopping).mpr settled⟩

/-- The callback has yielded to `READY` and is not back in the queue: the other
worker is told that all is done, and its idle fiber ends. -/
theorem stopping_early :
    ∃ a : Accounts Bool Nat Unit Unit,
      Reach Accounts.Opened (StepOf Accounts.step) a ∧
      a.scheduler.stopping = true ∧ a.scheduler.pc true = .idle ∧
      ¬a.scheduler.Done := by
  obtain ⟨a, ran, stopping, idle, working⟩ : ∃ a, exec Accounts.step
      Accounts.opening
      [.act (.call (.schedule (.cb ()) none)), .act (.work false),
        .act (.construct false 0), .act (.work false), .act (.work false),
        .act (.work false), .act (.work true), .act (.work true),
        .act (.work true), .act (.work true), .act (.call .stop),
        .act (.run false .yieldToReady), .act (.work false),
        .act (.work false), .act (.work false), .act (.work false)] = some a ∧
      a.scheduler.stopping = true ∧ a.scheduler.pc true = .idle ∧
      a.scheduler.unfinished false = true := ⟨_, rfl, rfl, rfl, rfl⟩
  refine ⟨a, reach_exec (.start _ Accounts.opening_opened) ran, stopping, idle,
    ?_⟩
  rintro ⟨-, finished⟩
  rw [finished] at working
  cases working

end Sylar.Scheduler
