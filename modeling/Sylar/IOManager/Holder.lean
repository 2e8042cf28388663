import Sylar.IOManager.Registered
import Sylar.Logic.Registry

namespace Sylar.IOManager

open Logic

/-! What waits for each event of each descriptor, as a map; each operation is one
change of it. -/

namespace State

variable {D P F C : Type} [DecidableEq D] [DecidableEq P] {s t : State D P F C}
  {fd : D} {event : Event} {p : P}

def holder (s : State D P F C) (key : D × Event) : Option (Task F C) :=
  (s.slot key.1 key.2).bind fun p => (s.contexts p).task

omit [DecidableEq D] [DecidableEq P] in
theorem holder_of_slot (held : s.slot fd event = some p) :
    s.holder (fd, event) = (s.contexts p).task := by
  simp [holder, held]

omit [DecidableEq D] [DecidableEq P] in
theorem holder_clear (clear : (s.fdContexts fd).events event = false) :
    s.holder (fd, event) = none := by
  have empty : s.slot fd event = none := by
    simp [slot, FdContext.slot, clear]
  simp [holder, empty]

omit [DecidableEq D] [DecidableEq P] in
theorem isSome_holder (sound : s.Sound) (fd : D) (event : Event) :
    (s.holder (fd, event)).isSome = (s.fdContexts fd).events event := by
  cases set : (s.fdContexts fd).events event with
  | true =>
      obtain ⟨p, held⟩ := sound.present fd event set
      obtain ⟨-, task, waits⟩ := sound.ready fd event p held
      rw [holder_of_slot held, waits]
      rfl
  | false =>
      rw [holder_clear set]
      rfl

omit [DecidableEq P] in
/-- A change at one event is one of the map. -/
theorem Local.holder (unchanged : Local s t fd event) :
    t.holder = Function.update s.holder (fd, event) (t.holder (fd, event)) := by
  funext key
  rcases eq_or_ne key (fd, event) with rfl | different
  · rw [Function.update_self]
  · rw [Function.update_of_ne different]
    have apart : key.1 = fd → key.2 ≠ event := by
      intro same equal
      exact different (Prod.ext same equal)
    unfold State.holder
    rw [unchanged.slot key.1 key.2 apart]
    cases held : s.slot key.1 key.2 with
    | none => rfl
    | some q => exact (unchanged.contexts key.1 key.2 q apart held).2

omit [DecidableEq D] in
theorem holder_createEventContext (fresh : ∀ fd event, s.slot fd event ≠ some p) :
    (s.createEventContext p).holder = s.holder := by
  funext key
  unfold holder
  change (s.slot key.1 key.2).bind _ = (s.slot key.1 key.2).bind _
  cases held : s.slot key.1 key.2 with
  | none => rfl
  | some q =>
      have apart : q ≠ p := by
        rintro rfl
        exact fresh key.1 key.2 held
      simp [createEventContext, setContext, apart]

omit [DecidableEq D] in
theorem holder_transfer (p : P) (length : UInt32) :
    (s.setContext p { s.contexts p with dwDataLength := length }).holder =
      s.holder := by
  funext key
  unfold holder
  change (s.slot key.1 key.2).bind _ = (s.slot key.1 key.2).bind _
  cases held : s.slot key.1 key.2 with
  | none => rfl
  | some q =>
      rcases eq_or_ne q p with rfl | apart
      · simp [setContext, EventContext.task]
      · simp [setContext, apart]

theorem addEvent_holder (sound : s.Sound) {task : Task F C}
    (taken : s.addEvent fd event p task = some t) :
    s.holder (fd, event) = none ∧
      t.holder = Function.update s.holder (fd, event) (some task) := by
  refine ⟨holder_clear (addEvent_eq_some taken).1, ?_⟩
  have held : t.slot fd event = some p := by
    rw [addEvent_slot taken]
    exact if_pos ⟨rfl, rfl⟩
  rw [(addEvent_local sound taken).holder, holder_of_slot held,
    (addEvent_task taken).2]

omit [DecidableEq P] in
theorem holder_setFd_of_ne {other : D} (different : other ≠ fd)
    (ctx : FdContext P) (also : Event) :
    (s.setFd fd ctx).holder (other, also) = s.holder (other, also) := by
  unfold holder
  rw [slot_setFd, if_neg different]
  rfl

/-- The registration under an event has ended, if there was one. -/
structure Ended (s t : State D P F C) (fd : D) (event : Event) : Prop where
  sound : t.Sound
  holder : t.holder = Function.update s.holder (fd, event) none
  others : ∀ other, other ≠ fd → t.fdContexts other = s.fdContexts other

omit [DecidableEq P] in
theorem Ended.of_clear (sound : s.Sound)
    (clear : (s.fdContexts fd).events event = false) : Ended s s fd event :=
  ⟨sound, by rw [← holder_clear clear, Function.update_eq_self], fun _ _ => rfl⟩

omit [DecidableEq P] in
theorem Ended.lower (ended : Ended s t fd event) : Ended s t.lower fd event :=
  ⟨ended.sound.lower, ended.holder, ended.others⟩

omit [DecidableEq P] in
theorem Ended.setFd (sound : s.Sound) {ctx : FdContext P}
    (events : ∀ also, ctx.events also =
      if also = event then false else (s.fdContexts fd).events also)
    (slot : ∀ also, ctx.slot also = if also = event then none else s.slot fd also) :
    Ended s (s.setFd fd ctx) fd event := by
  refine ⟨sound.setFd event events slot, ?_, fun _ different => ?_⟩
  · have clear : (s.setFd fd ctx).holder (fd, event) = none := by
      apply holder_clear
      rw [setFd_self, events, if_pos rfl]
    rw [(setFd_local events slot).holder, clear]
  · exact setFd_of_ne different ctx

omit [DecidableEq P] in
theorem delEvent_ended (sound : s.Sound) (fd : D) (event : Event) :
    Ended s (s.delEvent fd event).2 fd event := by
  unfold delEvent
  split
  · exact (Ended.setFd sound (FdContext.unregister_events _ event)
      (FdContext.slot_unregister _ event)).lower
  · rename_i clear
    exact .of_clear sound (by simpa using clear)

theorem cancelEvent_ended (sound : s.Sound) {found : Bool}
    {tasks : List (Task F C)}
    (taken : s.cancelEvent fd event = some (found, t, tasks)) :
    Ended s t fd event := by
  rw [cancelEvent_eq] at taken
  split at taken
  · cases taken
    exact (Ended.setFd sound (FdContext.setEvent_events _ event · false)
      (FdContext.slot_setEvent_false _ event)).lower
  · rename_i clear
    cases taken
    exact .of_clear sound (by simpa using clear)

/-- `triggerEvent` ends a registration and returns what waited. -/
theorem triggerEvent_ended (sound : s.Sound) (fd : D) (event : Event) :
    ∃ t, s.triggerEvent fd event = some (t, (s.holder (fd, event)).toList) ∧
      Ended s t fd event ∧ t.pendingEventCount = s.pendingEventCount := by
  cases set : (s.fdContexts fd).events event with
  | true =>
      obtain ⟨p, held⟩ := sound.present fd event set
      refine ⟨s.release fd event p, ?_, ⟨sound.release held, ?_, ?_⟩, rfl⟩
      · rw [triggerEvent_of_slot sound held, holder_of_slot held]
      · have clear : (s.release fd event p).holder (fd, event) = none := by
          apply holder_clear
          rw [release_events]
          exact if_pos ⟨rfl, rfl⟩
        rw [(release_local sound held).holder, clear]
      · intro other different
        exact setFd_of_ne different _
  | false =>
      refine ⟨s, ?_, .of_clear sound set, rfl⟩
      rw [triggerEvent_clear set, holder_clear set]
      rfl

/-- How many events a flag stands for. -/
def pending (s : State D P F C) (fd : D) (event : Event) : UInt64 :=
  if (s.fdContexts fd).events event then 1 else 0

theorem cancelOne_ended (sound : s.Sound) (fd : D) (event : Event) :
    ∃ t, s.cancelOne fd event = some (t, (s.holder (fd, event)).toList) ∧
      Ended s t fd event ∧
      t.pendingEventCount = s.pendingEventCount - s.pending fd event := by
  obtain ⟨t, triggered, ended, count⟩ := triggerEvent_ended sound fd event
  unfold cancelOne pending
  split
  · refine ⟨t.lower, ?_, ended.lower, ?_⟩
    · rw [triggered]
      rfl
    · change t.pendingEventCount - 1 = _
      rw [count]
  · rename_i clear
    have clear : (s.fdContexts fd).events event = false := by simpa using clear
    refine ⟨s, ?_, .of_clear sound clear, ?_⟩
    · rw [holder_clear clear]
      rfl
    · simp

omit [DecidableEq D] [DecidableEq P] in
theorem pending_eq (sound : s.Sound) (fd : D) (event : Event) :
    s.pending fd event = if (s.holder (fd, event)).isSome then 1 else 0 := by
  rw [isSome_holder sound, pending]

/-- No registration is left on a descriptor. -/
structure Cleared (s t : State D P F C) (fd : D) : Prop where
  sound : t.Sound
  holder : ∀ key, t.holder key = if key.1 = fd then none else s.holder key
  others : ∀ other, other ≠ fd → t.fdContexts other = s.fdContexts other

theorem cancelAll_cleared (sound : s.Sound) (fd : D) :
    ∃ t, s.cancelAll fd = some
        ((s.fdContexts fd).events .READ || (s.fdContexts fd).events .WRITE, t,
          (s.holder (fd, .READ)).toList ++ (s.holder (fd, .WRITE)).toList) ∧
      Cleared s t fd ∧
      t.pendingEventCount =
        s.pendingEventCount - s.pending fd .READ - s.pending fd .WRITE := by
  cases any : (s.fdContexts fd).events .READ || (s.fdContexts fd).events .WRITE with
  | true =>
      obtain ⟨read, first, readEnded, readCount⟩ := cancelOne_ended sound fd .READ
      obtain ⟨write, second, writeEnded, writeCount⟩ :=
        cancelOne_ended readEnded.sound fd .WRITE
      have kept : read.holder (fd, .WRITE) = s.holder (fd, .WRITE) := by
        rw [readEnded.holder]
        exact Function.update_of_ne (by simp) _ _
      refine ⟨write.setFd fd { write.fdContexts fd with events := fun _ => false },
        ?_, ⟨writeEnded.sound.setFd_clear fun _ => rfl, ?_, ?_⟩, ?_⟩
      · unfold cancelAll
        rw [if_pos any]
        simp only [first, Option.bind_some, second, Option.map_some, kept]
      · rintro ⟨other, also⟩
        rcases eq_or_ne other fd with rfl | different
        · rw [if_pos rfl]
          apply holder_clear
          rw [setFd_self]
        · rw [if_neg different, holder_setFd_of_ne different,
            writeEnded.holder, readEnded.holder,
            Function.update_of_ne (by simp [different]),
            Function.update_of_ne (by simp [different])]
      · intro other different
        rw [setFd_of_ne different, writeEnded.others other different,
          readEnded.others other different]
      · change write.pendingEventCount = _
        rw [writeCount, readCount, pending_eq readEnded.sound, kept,
          ← pending_eq sound]
  | false =>
      obtain ⟨read, write⟩ := Bool.or_eq_false_iff.mp any
      refine ⟨s, ?_, ⟨sound, ?_, fun _ _ => rfl⟩, ?_⟩
      · unfold cancelAll
        rw [if_neg (by rw [any]; exact Bool.false_ne_true), holder_clear read,
          holder_clear write]
        rfl
      · rintro ⟨other, also⟩
        split
        · rename_i same
          obtain rfl : other = fd := same
          cases also with
          | READ => exact holder_clear read
          | WRITE => exact holder_clear write
        · rfl
      · simp [pending, read, write]

/-- A packet ends the registration that it belongs to, or none. -/
theorem dispatch_ended (sound : s.Sound) (fd : D) (p : P) (length : UInt32) :
    ∃ t tasks lowered, s.dispatch fd p length = some (t, tasks, lowered) ∧
      ((∃ event, Ended s t fd event ∧ tasks = (s.holder (fd, event)).toList) ∨
        t.Sound ∧ t.holder = s.holder ∧ tasks = [] ∧
          t.fdContexts = s.fdContexts) := by
  cases waits : s.waiter fd p with
  | none =>
      refine ⟨_, _, _, dispatch_of_not_slot length (waiter_eq_none sound waits),
        .inr ⟨sound.transfer p length, holder_transfer p length, rfl, rfl⟩⟩
  | some task =>
      obtain ⟨event, held, -⟩ := waiter_eq_some waits
      refine ⟨_, _, _, dispatch_of_slot sound length held, .inl ⟨event, ?_, ?_⟩⟩
      · have stored := sound.transfer p length
        have still : (s.setContext p { s.contexts p with
            dwDataLength := length }).slot fd event = some p := held
        have clear : ((s.setContext p { s.contexts p with
            dwDataLength := length }).release fd event p).holder (fd, event) =
              none := by
          apply holder_clear
          rw [release_events]
          exact if_pos ⟨rfl, rfl⟩
        apply Ended.lower
        refine ⟨stored.release still, ?_, fun other different => ?_⟩
        · rw [(release_local stored still).holder, clear, holder_transfer]
        · exact setFd_of_ne different _
      · rw [holder_of_slot held]

end State

end Sylar.IOManager
