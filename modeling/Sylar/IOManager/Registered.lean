import Sylar.IOManager.Model

namespace Sylar.IOManager

open Logic

/-! Which event context is registered for an event, what each operation does to
that, and that a registered context can be triggered. -/

namespace FdContext

def slot (ctx : FdContext P) (event : Event) : Option P :=
  if ctx.events event then ctx.getContext event else none

theorem setContext_events (ctx : FdContext P) (p : Option P) (event : Event) :
    (ctx.setContext p event).events = ctx.events := by
  cases event <;> rfl

theorem getContext_setContext (ctx : FdContext P) (p : Option P)
    (event other : Event) :
    (ctx.setContext p event).getContext other =
      if other = event then p else ctx.getContext other := by
  cases event <;> cases other <;> rfl

theorem setEvent_events (ctx : FdContext P) (event other : Event) (set : Bool) :
    (ctx.setEvent event set).events other =
      if other = event then set else ctx.events other :=
  Function.update_apply ..

theorem slot_eq_some {ctx : FdContext P} {event : Event} {p : P} :
    ctx.slot event = some p ↔
      ctx.events event = true ∧ ctx.getContext event = some p := by
  unfold slot
  split
  · simp [*]
  · simp [*]

theorem unregister_events (ctx : FdContext P) (event other : Event) :
    (ctx.unregister event).events other =
      if other = event then false else ctx.events other := by
  rw [unregister, resetContext, setContext_events, setEvent_events]

theorem register_events (ctx : FdContext P) (event other : Event) (p : P) :
    (ctx.register event p).events other =
      if other = event then true else ctx.events other := by
  rw [register, setContext_events, setEvent_events]

theorem slot_setEvent_false (ctx : FdContext P) (event other : Event) :
    (ctx.setEvent event false).slot other =
      if other = event then none else ctx.slot other := by
  unfold slot
  rw [setEvent_events]
  by_cases same : other = event
  · simp [same]
  · simp only [same, if_false]
    rfl

theorem slot_unregister (ctx : FdContext P) (event other : Event) :
    (ctx.unregister event).slot other =
      if other = event then none else ctx.slot other := by
  unfold slot unregister resetContext
  rw [setContext_events, setEvent_events, getContext_setContext]
  by_cases same : other = event
  · simp [same]
  · simp only [same, if_false]
    rfl

theorem slot_register (ctx : FdContext P) (event other : Event) (p : P) :
    (ctx.register event p).slot other =
      if other = event then some p else ctx.slot other := by
  unfold slot register
  rw [setContext_events, setEvent_events, getContext_setContext]
  by_cases same : other = event
  · simp [same]
  · simp only [same, if_false]
    rfl

end FdContext

namespace EventContext

theorem assign_scheduler (ctx : EventContext F C) (task : Task F C) :
    (ctx.assign task).scheduler = true := by
  cases task <;> rfl

theorem assign_task {ctx : EventContext F C} (unused : ctx.unused = true)
    (task : Task F C) : (ctx.assign task).task = some task := by
  simp only [EventContext.unused, Bool.and_eq_true, Option.isNone_iff_eq_none] at unused
  cases task with
  | cb cb => rfl
  | fiber fiber => simp [assign, EventContext.task, unused.2]

end EventContext

namespace State

variable {D P F C : Type} [DecidableEq D] [DecidableEq P] {s t : State D P F C}
  {fd : D} {event : Event} {p : P}

def slot (s : State D P F C) (fd : D) (event : Event) : Option P :=
  (s.fdContexts fd).slot event

/-- A registered context can be triggered, and is registered once. -/
structure Sound (s : State D P F C) : Prop where
  present : ∀ fd event, (s.fdContexts fd).events event = true →
    ∃ p, s.slot fd event = some p
  ready : ∀ fd event p, s.slot fd event = some p →
    (s.contexts p).scheduler = true ∧ ∃ task, (s.contexts p).task = some task
  distinct : ∀ fd event other also p, s.slot fd event = some p →
    s.slot other also = some p → fd = other ∧ event = also

omit [DecidableEq P] in
@[simp] theorem setFd_self (ctx : FdContext P) :
    (s.setFd fd ctx).fdContexts fd = ctx := by
  simp [setFd]

omit [DecidableEq P] in
theorem setFd_of_ne {other : D} (apart : other ≠ fd) (ctx : FdContext P) :
    (s.setFd fd ctx).fdContexts other = s.fdContexts other := by
  simp [setFd, apart]

/-- A change at one event of one descriptor, to contexts that nobody else
registered. -/
structure Local (s t : State D P F C) (fd : D) (event : Event) : Prop where
  events : ∀ other also, (other = fd → also ≠ event) →
    (t.fdContexts other).events also = (s.fdContexts other).events also
  slot : ∀ other also, (other = fd → also ≠ event) →
    t.slot other also = s.slot other also
  contexts : ∀ other also p, (other = fd → also ≠ event) →
    s.slot other also = some p →
    (t.contexts p).scheduler = (s.contexts p).scheduler ∧
      (t.contexts p).task = (s.contexts p).task

omit [DecidableEq D] [DecidableEq P] in
theorem Sound.cleared (sound : s.Sound) (unchanged : Local s t fd event)
    (clear : (t.fdContexts fd).events event = false) : t.Sound := by
  have apart {other : D} {also : Event} {p : P} (held : t.slot other also = some p) :
      other = fd → also ≠ event := by
    rintro rfl rfl
    have set := (FdContext.slot_eq_some.mp held).1
    rw [clear] at set
    cases set
  refine ⟨?_, ?_, ?_⟩
  · intro other also set
    have elsewhere : other = fd → also ≠ event := by
      rintro rfl rfl
      rw [clear] at set
      cases set
    rw [unchanged.slot other also elsewhere]
    rw [unchanged.events other also elsewhere] at set
    exact sound.present other also set
  · intro other also p held
    have elsewhere := apart held
    rw [unchanged.slot other also elsewhere] at held
    obtain ⟨scheduler, task⟩ := unchanged.contexts other also p elsewhere held
    rw [scheduler, task]
    exact sound.ready other also p held
  · intro other also third more p held again
    rw [unchanged.slot other also (apart held)] at held
    rw [unchanged.slot third more (apart again)] at again
    exact sound.distinct other also third more p held again

omit [DecidableEq P] in
theorem Sound.registered (sound : s.Sound) (unchanged : Local s t fd event)
    (held : t.slot fd event = some p)
    (ready : (t.contexts p).scheduler = true ∧ ∃ task, (t.contexts p).task = some task)
    (fresh : ∀ other also, s.slot other also ≠ some p) : t.Sound := by
  have elsewhere {other : D} {also : Event} (differs : ¬ (other = fd ∧ also = event)) :
      other = fd → also ≠ event := by
    intro same equal
    exact differs ⟨same, equal⟩
  refine ⟨?_, ?_, ?_⟩
  · intro other also set
    by_cases here : other = fd ∧ also = event
    · obtain ⟨rfl, rfl⟩ := here
      exact ⟨p, held⟩
    · rw [unchanged.slot other also (elsewhere here)]
      rw [unchanged.events other also (elsewhere here)] at set
      exact sound.present other also set
  · intro other also q slot
    by_cases here : other = fd ∧ also = event
    · obtain ⟨rfl, rfl⟩ := here
      rw [held] at slot
      cases slot
      exact ready
    · rw [unchanged.slot other also (elsewhere here)] at slot
      obtain ⟨scheduler, task⟩ :=
        unchanged.contexts other also q (elsewhere here) slot
      rw [scheduler, task]
      exact sound.ready other also q slot
  · intro other also third more q slot again
    by_cases here : other = fd ∧ also = event
    · obtain ⟨rfl, rfl⟩ := here
      rw [held] at slot
      cases slot
      by_cases there : third = other ∧ more = also
      · exact ⟨there.1.symm, there.2.symm⟩
      · rw [unchanged.slot third more (elsewhere there)] at again
        exact absurd again (fresh third more)
    · rw [unchanged.slot other also (elsewhere here)] at slot
      by_cases there : third = fd ∧ more = event
      · obtain ⟨rfl, rfl⟩ := there
        rw [held] at again
        cases again
        exact absurd slot (fresh other also)
      · rw [unchanged.slot third more (elsewhere there)] at again
        exact sound.distinct other also third more q slot again

/-! ### The operations -/

omit [DecidableEq P] in
theorem slot_setFd {ctx : FdContext P} (other : D) (also : Event) :
    (s.setFd fd ctx).slot other also =
      if other = fd then ctx.slot also else s.slot other also := by
  unfold slot
  by_cases same : other = fd
  · subst same
    simp
  · simp [same, setFd_of_ne same]

/-- The event is no longer registered, and its context was swapped out. -/
def release (s : State D P F C) (fd : D) (event : Event) (p : P) : State D P F C :=
  (s.setContext p (s.contexts p).swapped).setFd fd
    ((s.fdContexts fd).unregister event)

theorem triggerEvent_of_slot (sound : s.Sound) (held : s.slot fd event = some p) :
    s.triggerEvent fd event =
      some (s.release fd event p, (s.contexts p).task.toList) := by
  obtain ⟨set, ctx⟩ := FdContext.slot_eq_some.mp held
  have scheduler := (sound.ready fd event p held).1
  unfold triggerEvent
  simp only [set, ctx, scheduler, if_true]
  rfl

theorem triggerEvent_clear (clear : (s.fdContexts fd).events event = false) :
    s.triggerEvent fd event = some (s, []) := by
  unfold triggerEvent
  simp [clear]

theorem release_events (other : D) (also : Event) :
    ((s.release fd event p).fdContexts other).events also =
      if other = fd ∧ also = event then false
      else (s.fdContexts other).events also := by
  unfold release
  by_cases same : other = fd
  · subst same
    rw [setFd_self, FdContext.unregister_events]
    simp
  · rw [setFd_of_ne same]
    simp [same, setContext]

theorem release_slot (other : D) (also : Event) :
    (s.release fd event p).slot other also =
      if other = fd ∧ also = event then none else s.slot other also := by
  unfold release
  rw [slot_setFd]
  by_cases same : other = fd
  · subst same
    simp only [if_true, FdContext.slot_unregister, true_and]
    rfl
  · simp only [same, if_false, false_and]
    rfl

theorem release_contexts_of_ne {q : P} (apart : q ≠ p) :
    (s.release fd event p).contexts q = s.contexts q := by
  simp [release, setFd, setContext, apart]

theorem release_local (sound : s.Sound) (held : s.slot fd event = some p) :
    Local s (s.release fd event p) fd event := by
  refine ⟨?_, ?_, ?_⟩
  · intro other also apart
    rw [release_events]
    exact if_neg fun same => apart same.1 same.2
  · intro other also apart
    rw [release_slot]
    exact if_neg fun same => apart same.1 same.2
  · intro other also q apart slot
    have unlike : q ≠ p := by
      rintro rfl
      obtain ⟨rfl, rfl⟩ := sound.distinct fd event other also q held slot
      exact apart rfl rfl
    rw [release_contexts_of_ne unlike]
    exact ⟨rfl, rfl⟩

theorem Sound.release (sound : s.Sound) (held : s.slot fd event = some p) :
    (s.release fd event p).Sound := by
  apply sound.cleared (release_local sound held)
  rw [release_events]
  exact if_pos ⟨rfl, rfl⟩

omit [DecidableEq D] [DecidableEq P] in
theorem Sound.lower (sound : s.Sound) : s.lower.Sound :=
  ⟨sound.present, sound.ready, sound.distinct⟩

omit [DecidableEq D] in
theorem Sound.transfer (sound : s.Sound) (p : P) (length : UInt32) :
    (s.setContext p { s.contexts p with dwDataLength := length }).Sound := by
  refine ⟨sound.present, ?_, sound.distinct⟩
  intro other also q held
  have ready := sound.ready other also q held
  by_cases same : q = p
  · subst same
    simpa [setContext, EventContext.task] using ready
  · simpa [setContext, same] using ready

omit [DecidableEq D] in
theorem Sound.createEventContext (sound : s.Sound)
    (fresh : ∀ fd event, s.slot fd event ≠ some p) :
    (s.createEventContext p).Sound := by
  refine ⟨sound.present, ?_, sound.distinct⟩
  intro other also q held
  have apart : q ≠ p := by
    rintro rfl
    exact fresh other also held
  simpa [State.createEventContext, setContext, apart] using
    sound.ready other also q held

theorem addEvent_eq_some {task : Task F C}
    (taken : s.addEvent fd event p task = some t) :
    (s.fdContexts fd).events event = false ∧ (s.contexts p).unused = true ∧
      t = { (s.setFd fd ((s.fdContexts fd).register event p)).setContext p
          ((s.contexts p).assign task) with
        pendingEventCount := s.pendingEventCount + 1 } := by
  unfold addEvent at taken
  split at taken
  · cases taken
  · rename_i clear
    split at taken
    · rename_i unused
      cases taken
      exact ⟨by simpa using clear, unused, rfl⟩
    · cases taken

theorem addEvent_slot {task : Task F C}
    (taken : s.addEvent fd event p task = some t) (other : D) (also : Event) :
    t.slot other also =
      if other = fd ∧ also = event then some p else s.slot other also := by
  obtain ⟨-, -, rfl⟩ := addEvent_eq_some taken
  change (s.setFd fd _).slot other also = _
  rw [slot_setFd]
  by_cases same : other = fd
  · subst same
    simp only [if_true, FdContext.slot_register, true_and]
    rfl
  · simp [same]

theorem addEvent_events {task : Task F C}
    (taken : s.addEvent fd event p task = some t) (other : D) (also : Event) :
    (t.fdContexts other).events also =
      if other = fd ∧ also = event then true
      else (s.fdContexts other).events also := by
  obtain ⟨-, -, rfl⟩ := addEvent_eq_some taken
  change ((s.setFd fd _).fdContexts other).events also = _
  by_cases same : other = fd
  · subst same
    rw [setFd_self, FdContext.register_events]
    simp
  · simp [setFd_of_ne same, same]

theorem addEvent_contexts {task : Task F C}
    (taken : s.addEvent fd event p task = some t) :
    t.contexts = Function.update s.contexts p ((s.contexts p).assign task) := by
  obtain ⟨-, -, rfl⟩ := addEvent_eq_some taken
  rfl

theorem addEvent_fresh (sound : s.Sound) {task : Task F C}
    (taken : s.addEvent fd event p task = some t) (other : D) (also : Event) :
    s.slot other also ≠ some p := by
  intro held
  have unused := (addEvent_eq_some taken).2.1
  have scheduler := (sound.ready other also p held).1
  simp [EventContext.unused, scheduler] at unused

theorem addEvent_local (sound : s.Sound) {task : Task F C}
    (taken : s.addEvent fd event p task = some t) : Local s t fd event := by
  refine ⟨?_, ?_, ?_⟩
  · intro other also apart
    rw [addEvent_events taken]
    exact if_neg fun same => apart same.1 same.2
  · intro other also apart
    rw [addEvent_slot taken]
    exact if_neg fun same => apart same.1 same.2
  · intro other also q apart held
    have unlike : q ≠ p := by
      rintro rfl
      exact addEvent_fresh sound taken other also held
    rw [addEvent_contexts taken, Function.update_of_ne unlike]
    exact ⟨rfl, rfl⟩

theorem addEvent_task {task : Task F C}
    (taken : s.addEvent fd event p task = some t) :
    (t.contexts p).scheduler = true ∧ (t.contexts p).task = some task := by
  have unused := (addEvent_eq_some taken).2.1
  rw [addEvent_contexts taken, Function.update_self]
  exact ⟨EventContext.assign_scheduler _ _, EventContext.assign_task unused task⟩

theorem Sound.addEvent (sound : s.Sound) {task : Task F C}
    (taken : s.addEvent fd event p task = some t) : t.Sound := by
  obtain ⟨scheduler, task⟩ := addEvent_task taken
  refine sound.registered (addEvent_local sound taken) ?_
    ⟨scheduler, _, task⟩ (addEvent_fresh sound taken)
  rw [addEvent_slot taken]
  exact if_pos ⟨rfl, rfl⟩

omit [DecidableEq P] in
theorem setFd_local {ctx : FdContext P}
    (events : ∀ also, ctx.events also =
      if also = event then false else (s.fdContexts fd).events also)
    (slot : ∀ also, ctx.slot also = if also = event then none else s.slot fd also) :
    Local s (s.setFd fd ctx) fd event := by
  refine ⟨?_, ?_, ?_⟩
  · intro other also apart
    by_cases same : other = fd
    · subst same
      rw [setFd_self, events]
      exact if_neg (apart rfl)
    · rw [setFd_of_ne same]
  · intro other also apart
    rw [slot_setFd]
    by_cases same : other = fd
    · subst same
      rw [if_pos rfl, slot]
      exact if_neg (apart rfl)
    · exact if_neg same
  · intro other also q apart held
    exact ⟨rfl, rfl⟩

omit [DecidableEq P] in
theorem Sound.setFd (sound : s.Sound) (event : Event) {ctx : FdContext P}
    (events : ∀ also, ctx.events also =
      if also = event then false else (s.fdContexts fd).events also)
    (slot : ∀ also, ctx.slot also = if also = event then none else s.slot fd also) :
    (s.setFd fd ctx).Sound := by
  apply sound.cleared (setFd_local events slot)
  rw [setFd_self, events]
  exact if_pos rfl

omit [DecidableEq P] in
theorem Sound.delEvent (sound : s.Sound) (fd : D) (event : Event) :
    (s.delEvent fd event).2.Sound := by
  unfold State.delEvent
  split
  · exact (sound.setFd event (FdContext.unregister_events _ event)
      (FdContext.slot_unregister _ event)).lower
  · exact sound

theorem Sound.triggerEvent (sound : s.Sound) {tasks : List (Task F C)}
    (taken : s.triggerEvent fd event = some (t, tasks)) : t.Sound := by
  cases set : (s.fdContexts fd).events event with
  | true =>
      obtain ⟨p, held⟩ := sound.present fd event set
      rw [triggerEvent_of_slot sound held] at taken
      cases taken
      exact sound.release held
  | false =>
      rw [triggerEvent_clear set] at taken
      cases taken
      exact sound

/-- With the flag cleared first, `cancelEvent` wakes nobody. -/
theorem cancelEvent_eq (fd : D) (event : Event) :
    s.cancelEvent fd event =
      if (s.fdContexts fd).events event then
        some (true, (s.setFd fd ((s.fdContexts fd).setEvent event false)).lower, [])
      else some (false, s, []) := by
  unfold cancelEvent
  split
  · have clear : (((s.setFd fd ((s.fdContexts fd).setEvent event false)).lower).fdContexts
        fd).events event = false := by
      change ((s.setFd fd _).fdContexts fd).events event = false
      rw [setFd_self, FdContext.setEvent_events]
      exact if_pos rfl
    rw [triggerEvent_clear clear]
    rfl
  · rfl

theorem cancelEvent_silent {found : Bool} {tasks : List (Task F C)}
    (taken : s.cancelEvent fd event = some (found, t, tasks)) : tasks = [] := by
  rw [cancelEvent_eq] at taken
  split at taken
  · cases taken
    rfl
  · cases taken
    rfl

theorem Sound.cancelEvent (sound : s.Sound) {found : Bool} {tasks : List (Task F C)}
    (taken : s.cancelEvent fd event = some (found, t, tasks)) : t.Sound := by
  rw [cancelEvent_eq] at taken
  split at taken
  · cases taken
    exact (sound.setFd event (FdContext.setEvent_events _ event · false)
      (FdContext.slot_setEvent_false _ event)).lower
  · cases taken
    exact sound

theorem Sound.cancelOne (sound : s.Sound) {tasks : List (Task F C)}
    (taken : s.cancelOne fd event = some (t, tasks)) : t.Sound := by
  unfold State.cancelOne at taken
  split at taken
  · obtain ⟨⟨next, some⟩, triggered, equal⟩ := Option.map_eq_some_iff.mp taken
    cases equal
    exact (sound.triggerEvent triggered).lower
  · cases taken
    exact sound

omit [DecidableEq P] in
theorem Sound.setFd_clear (sound : s.Sound) {ctx : FdContext P}
    (clear : ∀ event, ctx.events event = false) : (s.setFd fd ctx).Sound := by
  have kept {other : D} {also : Event} {p : P}
      (held : (s.setFd fd ctx).slot other also = some p) :
      s.slot other also = some p := by
    rw [slot_setFd] at held
    split at held
    · have set := (FdContext.slot_eq_some.mp held).1
      rw [clear] at set
      cases set
    · exact held
  refine ⟨?_, ?_, ?_⟩
  · intro other also set
    by_cases same : other = fd
    · subst same
      rw [setFd_self, clear] at set
      cases set
    · rw [setFd_of_ne same] at set
      rw [slot_setFd, if_neg same]
      exact sound.present other also set
  · intro other also p held
    exact sound.ready other also p (kept held)
  · intro other also third more p held again
    exact sound.distinct other also third more p (kept held) (kept again)

theorem Sound.cancelAll (sound : s.Sound) {found : Bool} {tasks : List (Task F C)}
    (taken : s.cancelAll fd = some (found, t, tasks)) : t.Sound := by
  unfold State.cancelAll at taken
  split at taken
  · obtain ⟨⟨read, first⟩, one, taken⟩ := Option.bind_eq_some_iff.mp taken
    obtain ⟨⟨write, second⟩, two, equal⟩ := Option.map_eq_some_iff.mp taken
    cases equal
    exact ((sound.cancelOne one).cancelOne two).setFd_clear fun _ => rfl
  · cases taken
    exact sound

/-! ### Dispatching a packet -/

/-- What the registered event with this context waits with. -/
def waiter (s : State D P F C) (fd : D) (p : P) : Option (Task F C) :=
  if s.slot fd .READ = some p ∨ s.slot fd .WRITE = some p then
    (s.contexts p).task
  else none

omit [DecidableEq D] in
theorem waiter_eq_some {task : Task F C} (waits : s.waiter fd p = some task) :
    ∃ event, s.slot fd event = some p ∧ (s.contexts p).task = some task := by
  unfold waiter at waits
  split at waits
  · rename_i held
    obtain held | held := held
    · exact ⟨.READ, held, waits⟩
    · exact ⟨.WRITE, held, waits⟩
  · cases waits

omit [DecidableEq D] in
theorem waiter_eq_none (sound : s.Sound) (stray : s.waiter fd p = none)
    (event : Event) : s.slot fd event ≠ some p := by
  intro held
  obtain ⟨-, task, waits⟩ := sound.ready fd event p held
  unfold waiter at stray
  rw [if_pos, waits] at stray
  · cases stray
  · cases event with
    | READ => exact .inl held
    | WRITE => exact .inr held

theorem dispatch_of_slot (sound : s.Sound) (length : UInt32)
    (held : s.slot fd event = some p) :
    s.dispatch fd p length = some
      (((s.setContext p { s.contexts p with dwDataLength := length }).release fd
        event p).lower, (s.contexts p).task.toList,
        some (s.pendingEventCount - 1)) := by
  have stored := sound.transfer p length
  have still : (s.setContext p { s.contexts p with dwDataLength := length }).slot fd
      event = some p := held
  have fires := triggerEvent_of_slot stored still
  have task : ((s.setContext p { s.contexts p with dwDataLength := length }).contexts
      p).task = (s.contexts p).task := by
    simp [setContext, EventContext.task]
  rw [task] at fires
  obtain ⟨set, ctx⟩ := FdContext.slot_eq_some.mp held
  unfold dispatch
  cases event with
  | READ =>
      rw [if_pos ⟨set, ctx⟩, fires]
      rfl
  | WRITE =>
      rw [if_neg, if_pos ⟨set, ctx⟩, fires]
      · rfl
      · rintro ⟨also, other⟩
        have second : s.slot fd .READ = some p :=
          FdContext.slot_eq_some.mpr ⟨also, other⟩
        cases (sound.distinct fd .WRITE fd .READ p held second).2

theorem dispatch_of_not_slot (length : UInt32)
    (stray : ∀ event, s.slot fd event ≠ some p) :
    s.dispatch fd p length = some
      (s.setContext p { s.contexts p with dwDataLength := length }, [], none) := by
  unfold dispatch
  rw [if_neg, if_neg]
  · rintro ⟨set, ctx⟩
    exact stray .WRITE (FdContext.slot_eq_some.mpr ⟨set, ctx⟩)
  · rintro ⟨set, ctx⟩
    exact stray .READ (FdContext.slot_eq_some.mpr ⟨set, ctx⟩)

theorem Sound.dispatch (sound : s.Sound) {length : UInt32}
    {tasks : List (Task F C)} {lowered : Option UInt64}
    (taken : s.dispatch fd p length = some (t, tasks, lowered)) : t.Sound := by
  cases waits : s.waiter fd p with
  | none =>
      rw [dispatch_of_not_slot length (waiter_eq_none sound waits)] at taken
      cases taken
      exact sound.transfer p length
  | some task =>
      obtain ⟨event, held, -⟩ := waiter_eq_some waits
      rw [dispatch_of_slot sound length held] at taken
      cases taken
      have stored := sound.transfer p length
      exact (stored.release held).lower

end State

end Sylar.IOManager
