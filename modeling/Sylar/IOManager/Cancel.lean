import Sylar.IOManager.Holder
import Sylar.IOManager.Wake

namespace Sylar.IOManager

open Logic

/-! The registrations of an `IOManager` past a run: `addEvent` makes one,
`delEvent`, `cancelEvent`, `cancelAll` and a dispatched packet end them, and
what is scheduled is what these operations return. -/

/-- The operation that ended a registration. -/
inductive Ending
  | delEvent
  | cancelEvent
  | cancelAll
  | dispatch
  deriving DecidableEq, Repr

structure Waiters (D P F C : Type) where
  io : State D P F C
  /-- every registration since the start -/
  ledger : Ledger ((D × Event) × Task F C) Ending
  scheduled : List (Task F C)

namespace Waiters

inductive Action (D P F C : Type)
  | createEventContext (p : P)
  | addEvent (fd : D) (event : Event) (p : P) (task : Task F C)
  | delEvent (fd : D) (event : Event)
  | cancelEvent (fd : D) (event : Event)
  | cancelAll (fd : D)
  | dispatch (fd : D) (overlapped : P) (dwTrans : UInt32)

variable {D P F C : Type} [DecidableEq D] [DecidableEq P]

/-- The events of a descriptor that are registered before an operation and not
after it. -/
def ended (before after : State D P F C) (fd : D) : List (D × Event) :=
  ([.READ, .WRITE].filter fun event =>
    (before.fdContexts fd).events event &&
      !(after.fdContexts fd).events event).map (fd, ·)

def settle (w : Waiters D P F C) (io : State D P F C) (fd : D) (how : Ending)
    (tasks : List (Task F C)) : Waiters D P F C where
  io := io
  ledger := w.ledger.closeAll (ended w.io io fd) how
  scheduled := w.scheduled ++ tasks

def step (w : Waiters D P F C) : Action D P F C → Option (Waiters D P F C)
  | .createEventContext p => some { w with io := w.io.createEventContext p }
  | .addEvent fd event p task =>
      (w.io.addEvent fd event p task).map fun io =>
        { w with io := io, ledger := w.ledger.push ((fd, event), task) }
  | .delEvent fd event =>
      some (w.settle (w.io.delEvent fd event).2 fd .delEvent [])
  | .cancelEvent fd event =>
      (w.io.cancelEvent fd event).map fun (_, io, tasks) =>
        w.settle io fd .cancelEvent tasks
  | .cancelAll fd =>
      (w.io.cancelAll fd).map fun (_, io, tasks) =>
        w.settle io fd .cancelAll tasks
  | .dispatch fd overlapped dwTrans =>
      (w.io.dispatch fd overlapped dwTrans).map fun (io, tasks, _) =>
        w.settle io fd .dispatch tasks

structure Opened (w : Waiters D P F C) : Prop where
  fdContexts : ∀ fd, w.io.fdContexts fd = .new
  ledger : w.ledger = .empty
  scheduled : w.scheduled = []

/-- An event context is made where no `FdContext` refers to. -/
def Allocated (w : Waiters D P F C) : Action D P F C → Prop
  | .createEventContext p => ∀ fd, (w.io.fdContexts fd).read ≠ some p ∧
      (w.io.fdContexts fd).write ≠ some p
  | _ => True

/-- No `cancelEvent` finds its event registered. -/
def Quiet (w : Waiters D P F C) : Action D P F C → Prop
  | .cancelEvent fd event => (w.io.fdContexts fd).events event = false
  | _ => True

def Heard (w : Waiters D P F C) (action : Action D P F C) : Prop :=
  w.Allocated action ∧ w.Quiet action

/-- What waited under the registrations that ended otherwise than by
`delEvent`. -/
def heard (w : Waiters D P F C) : List (Task F C) :=
  (w.ledger.taken.filter fun record => record.2 ≠ .delEvent).map
    fun record => record.1.value.2

structure Kept (w : Waiters D P F C) : Prop where
  sound : w.io.Sound
  tracks : Tracks w.ledger w.io.holder

variable {w next : Waiters D P F C} {fd : D} {event : Event}

omit [DecidableEq D] [DecidableEq P] in
theorem mem_ended {before after : State D P F C} {key : D × Event} :
    key ∈ ended before after fd ↔ key.1 = fd ∧
      (before.fdContexts fd).events key.2 = true ∧
        (after.fdContexts fd).events key.2 = false := by
  obtain ⟨other, also⟩ := key
  simp only [ended, List.mem_map, List.mem_filter, Bool.and_eq_true,
    Bool.not_eq_true', Prod.mk.injEq]
  constructor
  · rintro ⟨event, ⟨-, before, after⟩, rfl, rfl⟩
    exact ⟨rfl, before, after⟩
  · rintro ⟨rfl, before, after⟩
    exact ⟨also, ⟨by cases also <;> simp, before, after⟩, rfl, rfl⟩

omit [DecidableEq D] [DecidableEq P] in
theorem ended_nodup (before after : State D P F C) (fd : D) :
    (ended before after fd).Nodup := by
  refine List.Nodup.map (fun event other same => (Prod.mk.inj same).2) ?_
  exact List.Nodup.filter _ (by decide)

/-- What waited for the events that ended. -/
def woken (before after : State D P F C) (fd : D) : List (Task F C) :=
  (ended before after fd).flatMap fun key => (before.holder key).toList

omit [DecidableEq P] in
theorem woken_ended {s t : State D P F C} (sound : s.Sound)
    (past : s.Ended t fd event) :
    woken s t fd = (s.holder (fd, event)).toList := by
  have after : ∀ also, (t.fdContexts fd).events also =
      (Function.update s.holder (fd, event) none (fd, also)).isSome := by
    intro also
    rw [← past.holder, State.isSome_holder past.sound]
  unfold woken ended
  simp only [← State.isSome_holder sound, after, Function.update_apply,
    Prod.mk.injEq, true_and]
  cases event <;> cases read : s.holder (fd, .READ) <;>
    cases write : s.holder (fd, .WRITE) <;> simp [read, write]

omit [DecidableEq P] in
theorem woken_cleared {s t : State D P F C} (sound : s.Sound)
    (past : s.Cleared t fd) :
    woken s t fd =
      (s.holder (fd, .READ)).toList ++ (s.holder (fd, .WRITE)).toList := by
  have after : ∀ also, (t.fdContexts fd).events also = false := by
    intro also
    rw [← State.isSome_holder past.sound, past.holder, if_pos rfl]
    rfl
  unfold woken ended
  simp only [← State.isSome_holder sound, after]
  cases read : s.holder (fd, .READ) <;>
    cases write : s.holder (fd, .WRITE) <;> simp [read, write]

omit [DecidableEq D] [DecidableEq P] in
theorem woken_same {s t : State D P F C}
    (same : t.fdContexts = s.fdContexts) : woken s t fd = [] := by
  have none : ended s t fd = [] := by
    rw [List.eq_nil_iff_forall_not_mem]
    intro key inside
    obtain ⟨-, before, after⟩ := mem_ended.mp inside
    rw [same, before] at after
    cases after
  rw [woken, none]
  rfl

omit [DecidableEq P] in
/-- The registrations that an operation ends are closed in the ledger. -/
theorem Kept.settle (kept : Kept w) {io : State D P F C} {how : Ending}
    {tasks : List (Task F C)} (sound : io.Sound)
    (ends : ∀ key, io.holder key = w.io.holder key ∨
      key.1 = fd ∧ io.holder key = none) :
    Kept (w.settle io fd how tasks) ∧
      ∃ past, (w.settle io fd how tasks).ledger.taken = w.ledger.taken ++ past ∧
        past.map (fun record => record.1.value.2) = woken w.io io fd ∧
        ∀ record ∈ past, record.2 = how := by
  have held : ∀ key ∈ ended w.io io fd, (w.io.holder key).isSome := by
    rintro ⟨other, also⟩ inside
    obtain ⟨rfl, before, -⟩ := mem_ended.mp inside
    rw [State.isSome_holder kept.sound]
    exact before
  obtain ⟨tracks, past, taken, values, same⟩ :=
    kept.tracks.closeAll (ended_nodup w.io io fd) held how
  refine ⟨⟨sound, ?_⟩, past, taken, ?_, same⟩
  · refine cast (congrArg (Tracks _) (funext fun key => ?_)) tracks
    obtain ⟨other, also⟩ := key
    split
    · rename_i inside
      obtain ⟨rfl, -, after⟩ := mem_ended.mp inside
      exact (State.holder_clear after).symm
    · rename_i outside
      rcases ends (other, also) with kept' | ⟨rfl, gone⟩
      · exact kept'.symm
      · change w.io.holder (other, also) = io.holder (other, also)
        rw [gone]
        by_contra present
        refine outside (mem_ended.mpr ⟨rfl, ?_, ?_⟩)
        · rw [← State.isSome_holder kept.sound]
          exact Option.isSome_iff_ne_none.mpr present
        · rw [← State.isSome_holder sound, gone]
          rfl
  · have tasks := congrArg (List.map Prod.snd) values
    rw [List.map_map, List.map_flatMap] at tasks
    refine tasks.trans (List.flatMap_congr fun key _ => ?_)
    cases w.io.holder key <;> rfl

omit [DecidableEq P] in
theorem ends_of_ended {s t : State D P F C} (past : s.Ended t fd event)
    (key : D × Event) :
    t.holder key = s.holder key ∨ key.1 = fd ∧ t.holder key = none := by
  rw [past.holder]
  rcases eq_or_ne key (fd, event) with rfl | different
  · exact .inr ⟨rfl, Function.update_self _ _ _⟩
  · exact .inl (Function.update_of_ne different _ _)

omit [DecidableEq P] in
theorem ends_of_cleared {s t : State D P F C} (past : s.Cleared t fd)
    (key : D × Event) :
    t.holder key = s.holder key ∨ key.1 = fd ∧ t.holder key = none := by
  rw [past.holder]
  split
  · rename_i here
    exact .inr ⟨here, rfl⟩
  · exact .inl rfl

omit [DecidableEq P] in
theorem Kept.settled (kept : Kept w) {io : State D P F C} {how : Ending}
    (scheduled : w.scheduled = w.heard) {tasks : List (Task F C)}
    (sound : io.Sound)
    (ends : ∀ key, io.holder key = w.io.holder key ∨
      key.1 = fd ∧ io.holder key = none)
    (wakes : tasks = if how = .delEvent then [] else woken w.io io fd) :
    (w.settle io fd how tasks).scheduled = (w.settle io fd how tasks).heard := by
  obtain ⟨-, past, taken, values, same⟩ :=
    @Kept.settle _ _ _ _ _ w fd kept io how tasks sound ends
  unfold heard
  rw [taken, List.filter_append, List.map_append]
  change w.scheduled ++ tasks = w.heard ++ _
  rw [scheduled, wakes]
  refine congrArg (w.heard ++ ·) ?_
  rcases eq_or_ne how .delEvent with rfl | other
  · rw [if_pos rfl, List.filter_eq_nil_iff.mpr]
    · rfl
    · intro record inside
      simp [same record inside]
  · rw [if_neg other, List.filter_eq_self.mpr, values]
    intro record inside
    simp [same record inside, other]

/-- What an operation does to the registrations; where it is quiet it schedules
what waited for the events it ends. -/
inductive Effect (quiet : Prop) (w next : Waiters D P F C) : Prop
  | kept (io : State D P F C) (sound : io.Sound) (same : io.holder = w.io.holder)
      (equal : next = { w with io := io })
  | registered (io : State D P F C) (key : D × Event) (task : Task F C)
      (sound : io.Sound) (free : w.io.holder key = none)
      (holder : io.holder = Function.update w.io.holder key (some task))
      (equal : next =
        { w with io := io, ledger := w.ledger.push (key, task) })
  | ended (io : State D P F C) (fd : D) (how : Ending) (tasks : List (Task F C))
      (sound : io.Sound)
      (ends : ∀ key, io.holder key = w.io.holder key ∨
        key.1 = fd ∧ io.holder key = none)
      (wakes : quiet →
        tasks = if how = .delEvent then [] else woken w.io io fd)
      (equal : next = w.settle io fd how tasks)

theorem step_effect {action : Action D P F C} (sound : w.io.Sound)
    (allocated : w.Allocated action) (taken : w.step action = some next) :
    Effect (w.Quiet action) w next := by
  cases action with
  | createEventContext p =>
      cases taken
      have fresh : ∀ fd event, w.io.slot fd event ≠ some p := by
        intro fd event held
        have present := (FdContext.slot_eq_some.mp held).2
        cases event with
        | READ => exact (allocated fd).1 present
        | WRITE => exact (allocated fd).2 present
      exact .kept _ (sound.createEventContext fresh)
        (State.holder_createEventContext fresh) rfl
  | addEvent fd event p task =>
      obtain ⟨io, added, rfl⟩ := Option.map_eq_some_iff.mp taken
      obtain ⟨free, holder⟩ := State.addEvent_holder sound added
      exact .registered io (fd, event) task (sound.addEvent added) free holder rfl
  | delEvent fd event =>
      cases taken
      have past := State.delEvent_ended sound fd event
      exact .ended _ fd .delEvent [] past.sound (ends_of_ended past)
        (fun _ => rfl) rfl
  | cancelEvent fd event =>
      obtain ⟨⟨found, io, tasks⟩, cancelled, rfl⟩ := Option.map_eq_some_iff.mp taken
      have past := State.cancelEvent_ended sound cancelled
      refine .ended io fd .cancelEvent tasks past.sound (ends_of_ended past)
        (fun quiet => ?_) rfl
      rw [State.cancelEvent_eq, if_neg (by rw [quiet]; exact Bool.false_ne_true)]
        at cancelled
      cases cancelled
      exact (woken_same rfl).symm
  | cancelAll fd =>
      obtain ⟨⟨found, io, tasks⟩, cancelled, rfl⟩ := Option.map_eq_some_iff.mp taken
      obtain ⟨also, all, past, -⟩ := State.cancelAll_cleared sound fd
      rw [all] at cancelled
      cases cancelled
      exact .ended io fd .cancelAll _ past.sound (ends_of_cleared past)
        (fun _ => (woken_cleared sound past).symm) rfl
  | dispatch fd overlapped dwTrans =>
      obtain ⟨⟨io, tasks, lowered⟩, dispatched, rfl⟩ :=
        Option.map_eq_some_iff.mp taken
      obtain ⟨also, some, count, one, cases'⟩ :=
        State.dispatch_ended sound fd overlapped dwTrans
      rw [one] at dispatched
      cases dispatched
      rcases cases' with ⟨event, past, wakes⟩ | ⟨stays, holder, wakes, same⟩
      · exact .ended io fd .dispatch _ past.sound (ends_of_ended past)
          (fun _ => wakes.trans (woken_ended sound past).symm) rfl
      · refine .ended io fd .dispatch _ stays (fun key => .inl ?_)
          (fun _ => wakes.trans (woken_same same).symm) rfl
        rw [holder]

theorem kept_step {action : Action D P F C} (kept : Kept w)
    (allocated : w.Allocated action) (taken : w.step action = some next) :
    Kept next := by
  cases step_effect kept.sound allocated taken with
  | kept io sound same equal =>
      subst equal
      refine ⟨sound, ?_⟩
      rw [same]
      exact kept.tracks
  | registered io key task sound free holder equal =>
      subst equal
      refine ⟨sound, ?_⟩
      rw [holder]
      exact kept.tracks.push task free
  | ended io fd how tasks sound ends wakes equal =>
      subst equal
      exact (kept.settle sound ends).1

/-- With no registered event cancelled, what is scheduled is what waited. -/
theorem heard_step {action : Action D P F C} (kept : Kept w)
    (scheduled : w.scheduled = w.heard) (quiet : w.Heard action)
    (taken : w.step action = some next) : next.scheduled = next.heard := by
  cases step_effect kept.sound quiet.1 taken with
  | kept io sound same equal =>
      subst equal
      exact scheduled
  | registered io key task sound free holder equal =>
      subst equal
      exact scheduled
  | ended io fd how tasks sound ends wakes equal =>
      subst equal
      exact kept.settled scheduled sound ends (wakes quiet.2)

omit [DecidableEq P] in
theorem Opened.kept (opened : Opened w) : Kept w where
  sound := by
    refine ⟨?_, ?_, ?_⟩
    · intro fd event set
      rw [opened.fdContexts] at set
      cases set
    · intro fd event p held
      rw [State.slot, opened.fdContexts] at held
      cases held
    · intro fd event other also p held
      rw [State.slot, opened.fdContexts] at held
      cases held
  tracks := by
    have free : w.io.holder = fun _ => none := by
      funext key
      apply State.holder_clear
      rw [opened.fdContexts]
      rfl
    rw [opened.ledger, free]
    exact .empty

theorem kept_run (reached : Reach Opened (StepWhen step Allocated) w) : Kept w :=
  @Reach.invariant _ _ _ _ Kept (fun _ opened => opened.kept)
    (fun _ _ _ kept taken => kept_step kept taken.1 taken.2) w reached

theorem heard_run (reached : Reach Opened (StepWhen step Heard) w) :
    Kept w ∧ w.scheduled = w.heard := by
  refine @Reach.invariant _ _ _ _ (fun w => Kept w ∧ w.scheduled = w.heard) ?_ ?_
    w reached
  · intro w opened
    refine ⟨opened.kept, ?_⟩
    rw [opened.scheduled, heard, opened.ledger]
    rfl
  · rintro w action next ⟨kept, scheduled⟩ ⟨quiet, taken⟩
    exact ⟨kept_step kept quiet.1 taken, heard_step kept scheduled quiet taken⟩

end Waiters

namespace State

variable {D P F C : Type} [DecidableEq D] [DecidableEq P]

/-- Some events are cleared and nothing waits for them any more; the others are
as before. -/
def Clears (s t : State D P F C) (events : D × Event → Bool) : Prop :=
  ∀ key, (t.fdContexts key.1).events key.2 =
      (!events key && (s.fdContexts key.1).events key.2) ∧
    t.holder key = if events key then none else s.holder key

/-- `cancelEvent` clears exactly a registered event and wakes what waits. -/
def Cancels (s : State D P F C) (fd : D) (event : Event) : Prop :=
  (s.fdContexts fd).events event = true → ∃ t task,
    s.holder (fd, event) = some task ∧
    s.cancelEvent fd event = some (true, t, [task]) ∧
    s.Clears t (· = (fd, event)) ∧
    t.pendingEventCount = s.pendingEventCount - 1

/-- `cancelAll` clears the events of the descriptor and wakes what waits. -/
def CancelsAll (s : State D P F C) (fd : D) : Prop :=
  ∃ t, s.cancelAll fd = some
      ((s.fdContexts fd).events .READ || (s.fdContexts fd).events .WRITE, t,
        (s.holder (fd, .READ)).toList ++ (s.holder (fd, .WRITE)).toList) ∧
    s.Clears t (·.1 = fd) ∧
    t.pendingEventCount =
      s.pendingEventCount - s.pending fd .READ - s.pending fd .WRITE

omit [DecidableEq D] [DecidableEq P] in
theorem clears_of_holder {s t : State D P F C} (sound : s.Sound)
    (after : t.Sound) {events : D × Event → Bool}
    (holder : ∀ key, t.holder key = if events key then none else s.holder key) :
    s.Clears t events := by
  rintro ⟨fd, event⟩
  refine ⟨?_, holder (fd, event)⟩
  rw [← isSome_holder after, ← isSome_holder sound, holder]
  cases events (fd, event) <;> rfl

end State

namespace Waiters

variable {D P F C : Type} [DecidableEq D] [DecidableEq P]
  {w : Waiters D P F C}

theorem cancelEvent_registered {s : State D P F C} (sound : s.Sound) {fd : D}
    {event : Event} (set : (s.fdContexts fd).events event = true) :
    ∃ t, s.cancelEvent fd event = some (true, t, []) ∧
      s.Clears t (· = (fd, event)) ∧
      t.pendingEventCount = s.pendingEventCount - 1 := by
  have cancelled : s.cancelEvent fd event = some (true, (s.setFd fd
      ((s.fdContexts fd).setEvent event false)).lower, []) := by
    rw [State.cancelEvent_eq, if_pos set]
  have past := State.cancelEvent_ended sound cancelled
  refine ⟨_, cancelled, State.clears_of_holder sound past.sound ?_, rfl⟩
  intro key
  rw [past.holder, Function.update_apply]
  simp only [decide_eq_true_eq]

/-- A registered event is cleared by `cancelEvent` and nobody is woken;
`cancelAll` wakes. In a run in which no `cancelEvent` finds its event
registered, every registration that ended otherwise than by `delEvent` was
scheduled in the step that ended it. -/
theorem cancel_wakes (reached : Reach Opened (StepWhen step Allocated) w) :
    (∀ fd event, w.io.Cancels fd event ↔
        (w.io.fdContexts fd).events event = false) ∧
      (∀ fd event, (w.io.fdContexts fd).events event = true →
        ∃ t, w.io.cancelEvent fd event = some (true, t, []) ∧
          w.io.Clears t (· = (fd, event)) ∧
          t.pendingEventCount = w.io.pendingEventCount - 1) ∧
      (∀ fd, w.io.CancelsAll fd) ∧
      (∀ fd event, (w.io.holder (fd, event)).isSome =
        (w.io.fdContexts fd).events event) ∧
      (∀ key, (w.ledger.under key).Perm
        ((w.io.holder key).map (key, ·)).toList) ∧
      (∀ place < w.ledger.pushed.length,
        (w.ledger.waiting.map Logic.Entry.place).count place +
          (w.ledger.taken.map fun record => record.1.place).count place = 1) ∧
      (Reach Opened (StepWhen step Heard) w → w.scheduled = w.heard) := by
  have kept := kept_run reached
  refine ⟨?_, ?_, ?_, ?_, kept.tracks, fun place => w.ledger.count_once,
    fun quiet => (heard_run quiet).2⟩
  · intro fd event
    constructor
    · intro cancels
      by_contra set
      obtain ⟨t, task, -, woken, -⟩ := cancels (by simpa using set)
      cases State.cancelEvent_silent woken
    · intro clear set
      rw [clear] at set
      cases set
  · exact fun fd event => cancelEvent_registered kept.sound
  · intro fd
    obtain ⟨t, cancelled, past, count⟩ := State.cancelAll_cleared kept.sound fd
    refine ⟨t, cancelled, State.clears_of_holder kept.sound past.sound ?_, count⟩
    intro key
    rw [past.holder]
    simp only [decide_eq_true_eq]
  · exact State.isSome_holder kept.sound

/-- No event is registered. -/
def opening : Waiters Unit Nat Nat Unit where
  io := ⟨fun _ => .new, fun _ => .new, 0⟩
  ledger := .empty
  scheduled := []

theorem opening_opened : Opened opening := ⟨fun _ => rfl, rfl, rfl⟩

instance [Fintype D] (w : Waiters D P F C) :
    (action : Action D P F C) → Decidable (w.Allocated action)
  | .createEventContext p => inferInstanceAs
      (Decidable (∀ fd, (w.io.fdContexts fd).read ≠ some p ∧
        (w.io.fdContexts fd).write ≠ some p))
  | .addEvent _ _ _ _ => inferInstanceAs (Decidable True)
  | .delEvent _ _ => inferInstanceAs (Decidable True)
  | .cancelEvent _ _ => inferInstanceAs (Decidable True)
  | .cancelAll _ => inferInstanceAs (Decidable True)
  | .dispatch _ _ _ => inferInstanceAs (Decidable True)

instance (w : Waiters D P F C) :
    (action : Action D P F C) → Decidable (w.Quiet action)
  | .cancelEvent fd event => inferInstanceAs
      (Decidable ((w.io.fdContexts fd).events event = false))
  | .createEventContext _ => inferInstanceAs (Decidable True)
  | .addEvent _ _ _ _ => inferInstanceAs (Decidable True)
  | .delEvent _ _ => inferInstanceAs (Decidable True)
  | .cancelAll _ => inferInstanceAs (Decidable True)
  | .dispatch _ _ _ => inferInstanceAs (Decidable True)

instance [Fintype D] (w : Waiters D P F C) (action : Action D P F C) :
    Decidable (w.Heard action) :=
  inferInstanceAs (Decidable (_ ∧ _))

/-- A packet and `cancelAll` end a registration each, `delEvent` a third. -/
theorem cancel_wakes_all :
    ∃ w : Waiters Unit Nat Nat Unit,
      w.scheduled = [.fiber 7, .fiber 8] ∧ w.scheduled = w.heard := by
  let actions : List (Action Unit Nat Nat Unit) :=
    [.createEventContext 0, .addEvent () .READ 0 (.fiber 7), .dispatch () 0 12,
      .createEventContext 1, .addEvent () .WRITE 1 (.fiber 8), .cancelAll (),
      .createEventContext 2, .addEvent () .READ 2 (.fiber 9),
      .delEvent () .READ, .cancelEvent () .READ]
  obtain ⟨w, ran, scheduled⟩ : ∃ w, exec (guarded step Allocated) opening actions =
      some w ∧ w.scheduled = [.fiber 7, .fiber 8] := ⟨_, rfl, rfl⟩
  obtain ⟨w', heard, same⟩ : ∃ w', exec (guarded step Heard) opening actions =
      some w' ∧ w' = w := by
    refine ⟨_, rfl, ?_⟩
    exact Option.some.inj ran
  subst same
  exact ⟨w', scheduled,
    (cancel_wakes (reach_guarded (.start _ opening_opened) ran)).2.2.2.2.2.2
      (reach_guarded (.start _ opening_opened) heard)⟩

/-- The registration that `cancelEvent` ends wakes nobody: neither the fiber that
`addEvent` registered nor one whose receive timeout has expired in
`do_socket`. -/
theorem cancel_silent :
    (∃ w : Waiters Unit Nat Nat Unit,
      Reach Opened (StepWhen step Allocated) w ∧
      w.ledger.pushed = [(((), .READ), .fiber 7)] ∧
      w.ledger.taken.map (fun record => record.2) = [.cancelEvent] ∧
      w.scheduled = []) ∧
    ∃ (s : DoSocket.State Nat Unit Unit Unit) (call : DoSocket.Call Nat),
      Reach DoSocket.Initial (StepOf DoSocket.step) s ∧
      s.frame () = .inside .waiting call ∧ call.woken = false ∧
      s.cancelled () = true ∧ (s.io.fdContexts ()).events .READ = false ∧
      s.inflight = [] ∧ s.queue = [] ∧ s.held () = none ∧ s.timeouts = [] := by
  refine ⟨?_, ?_⟩
  · obtain ⟨w, ran, rest⟩ : ∃ w, exec (guarded step Allocated) opening
        [.createEventContext 0, .addEvent () .READ 0 (.fiber 7),
          .cancelEvent () .READ] = some w ∧
        w.ledger.pushed = [(((), .READ), .fiber 7)] ∧
        w.ledger.taken.map (fun record => record.2) = [.cancelEvent] ∧
        w.scheduled = [] := ⟨_, rfl, rfl, rfl, rfl⟩
    exact ⟨w, reach_guarded (.start _ opening_opened) ran, rest⟩
  · obtain ⟨s, ran, rest⟩ : ∃ s : DoSocket.State Nat Unit Unit Unit,
        exec DoSocket.step DoSocket.fresh
          [.issue () .READ true 0 .pending, .run (), .run (), .expire (),
            .timeout 0, .timeout 0, .timeout 0, .complete 0 0 false,
            .dequeue ()] = some s ∧
        s.frame () = .inside .waiting ⟨0, 0, .READ, true, false⟩ ∧
        s.cancelled () = true ∧ (s.io.fdContexts ()).events .READ = false ∧
        s.inflight = [] ∧ s.queue = [] ∧ s.held () = none ∧ s.timeouts = [] :=
      ⟨_, rfl, rfl, rfl, rfl, rfl, rfl, rfl, rfl⟩
    obtain ⟨inside, rest⟩ := rest
    exact ⟨s, _, reach_exec (.start _ DoSocket.fresh_initial) ran, inside, rfl,
      rest⟩

end Waiters

end Sylar.IOManager
