import Mathlib.Data.Finset.Card
import Mathlib.Data.Nat.Cast.Order.Basic
import Mathlib.Order.Interval.Finset.Nat
import Sylar.IOManager.Cancel

namespace Sylar.IOManager

open Logic

/-! `m_pendingEventCount` against the event bits of all the `FdContext`s. -/

/-- Where an `EventContext` can be. -/
abbrev Address := { p : UInt64 // p ≠ 0 }

namespace State

variable {D P F C : Type} [DecidableEq D] [DecidableEq P] {s t : State D P F C}
  {fd : D} {event : Event}

/-- These are the event bits that are set. -/
def Bits (s : State D P F C) (bits : Finset (D × Event)) : Prop :=
  ∀ key, key ∈ bits ↔ (s.fdContexts key.1).events key.2 = true

/-- The count is that of the bits, as far as 64 bits hold it. -/
def Counted (s : State D P F C) : Prop :=
  ∃ bits, s.Bits bits ∧ s.pendingEventCount = UInt64.ofNat bits.card

omit [DecidableEq D] [DecidableEq P] in
theorem Bits.ext {bits other : Finset (D × Event)} (first : s.Bits bits)
    (second : s.Bits other) : bits = other :=
  Finset.ext fun key => (first key).trans (second key).symm

omit [DecidableEq D] in
/-- Each bit has a context of its own, so there are fewer of them than
addresses. -/
theorem Bits.card_lt {s : State D Address F C} {bits : Finset (D × Event)}
    (exact' : s.Bits bits) (sound : s.Sound) : bits.card < 2 ^ 64 := by
  have held : ∀ key ∈ bits, ∃ p, s.slot key.1 key.2 = some p :=
    fun key inside => sound.present _ _ ((exact' key).mp inside)
  let place (key : D × Event) : Nat :=
    ((s.slot key.1 key.2).map fun p => p.val.toNat).getD 0
  have within : ∀ key ∈ bits, place key ∈ Finset.Ico 1 (2 ^ 64) := by
    intro key inside
    obtain ⟨p, slot⟩ := held key inside
    have nonzero : p.val.toNat ≠ 0 := by
      intro zero
      exact p.property (UInt64.toNat_inj.mp zero)
    simp only [place, slot, Option.map_some, Option.getD_some, Finset.mem_Ico]
    exact ⟨Nat.one_le_iff_ne_zero.mpr nonzero, p.val.toNat_lt⟩
  have apart : Set.InjOn place (bits : Set (D × Event)) := by
    intro one inside other also same
    obtain ⟨p, first⟩ := held one inside
    obtain ⟨q, second⟩ := held other also
    simp only [place, first, second, Option.map_some, Option.getD_some] at same
    obtain rfl : p = q := Subtype.ext (UInt64.toNat_inj.mp same)
    obtain ⟨descriptor, flag⟩ := sound.distinct _ _ _ _ p first second
    exact Prod.ext descriptor flag
  have bound := Finset.card_le_card_of_injOn place within apart
  rw [Nat.card_Ico] at bound
  omega

omit [DecidableEq D] in
theorem Counted.toNat {s : State D Address F C} (counted : s.Counted)
    (sound : s.Sound) :
    ∃ bits, s.Bits bits ∧ s.pendingEventCount.toNat = bits.card := by
  obtain ⟨bits, exact', count⟩ := counted
  refine ⟨bits, exact', ?_⟩
  rw [count, UInt64.toNat_ofNat_of_lt' (exact'.card_lt sound)]

omit [DecidableEq D] [DecidableEq P] in
theorem Counted.same (counted : s.Counted)
    (events : t.fdContexts = s.fdContexts)
    (count : t.pendingEventCount = s.pendingEventCount) : t.Counted := by
  obtain ⟨bits, exact', number⟩ := counted
  refine ⟨bits, fun key => ?_, count.trans number⟩
  rw [events]
  exact exact' key

theorem Counted.addEvent (counted : s.Counted) {p : P} {task : Task F C}
    (taken : s.addEvent fd event p task = some t) : t.Counted := by
  obtain ⟨bits, exact', count⟩ := counted
  obtain ⟨free, -, made⟩ := addEvent_eq_some taken
  have outside : (fd, event) ∉ bits := by
    intro inside
    have set := (exact' _).mp inside
    rw [free] at set
    cases set
  refine ⟨insert (fd, event) bits, ?_, ?_⟩
  · rintro ⟨other, also⟩
    rw [Finset.mem_insert, exact', Prod.mk.injEq, addEvent_events taken]
    by_cases here : other = fd ∧ also = event <;> simp [here]
  · rw [made, Finset.card_insert_of_notMem outside, UInt64.ofNat_add]
    change s.pendingEventCount + 1 = _
    rw [count]
    rfl

/-- An operation on a descriptor that sets no bit. -/
structure Fewer (s t : State D P F C) (fd : D) : Prop where
  others : ∀ other, other ≠ fd → t.fdContexts other = s.fdContexts other
  events : ∀ event, (t.fdContexts fd).events event = true →
    (s.fdContexts fd).events event = true
  count : t.pendingEventCount =
    s.pendingEventCount - UInt64.ofNat (Waiters.ended s t fd).length

omit [DecidableEq P] in
theorem Fewer.bits (fewer : Fewer s t fd) {bits : Finset (D × Event)}
    (exact' : s.Bits bits) :
    (Waiters.ended s t fd).toFinset ⊆ bits ∧
      t.Bits (bits \ (Waiters.ended s t fd).toFinset) := by
  refine ⟨?_, ?_⟩
  · rintro ⟨other, also⟩ inside
    obtain ⟨rfl, before, -⟩ := Waiters.mem_ended.mp (List.mem_toFinset.mp inside)
    exact (exact' _).mpr before
  · rintro ⟨other, also⟩
    rw [Finset.mem_sdiff, List.mem_toFinset, Waiters.mem_ended, exact']
    rcases eq_or_ne other fd with rfl | different
    · cases after : (t.fdContexts other).events also with
      | true => simp [fewer.events also after]
      | false => simp
    · simp [fewer.others other different, different]

omit [DecidableEq P] in
theorem length_ended_le (fewer : Fewer s t fd) {bits : Finset (D × Event)}
    (exact' : s.Bits bits) : (Waiters.ended s t fd).length ≤ bits.card := by
  rw [← List.toFinset_card_of_nodup (Waiters.ended_nodup s t fd)]
  exact Finset.card_le_card (fewer.bits exact').1

omit [DecidableEq P] in
theorem Counted.fewer (counted : s.Counted) (fewer : Fewer s t fd) :
    t.Counted := by
  obtain ⟨bits, exact', count⟩ := counted
  obtain ⟨inside, rest⟩ := fewer.bits exact'
  refine ⟨_, rest, ?_⟩
  rw [Finset.card_sdiff_of_subset inside,
    List.toFinset_card_of_nodup (Waiters.ended_nodup s t fd), fewer.count, count,
    UInt64.ofNat_sub (length_ended_le fewer exact')]

/-- The count goes down by the bits that are cleared, and does not wrap. -/
def Settled (s t : State D P F C) (fd : D) : Prop :=
  t.pendingEventCount.toNat + (Waiters.ended s t fd).length =
    s.pendingEventCount.toNat

theorem Fewer.settled {s t : State D Address F C} (fewer : Fewer s t fd)
    (sound : s.Sound) (counted : s.Counted) : Settled s t fd := by
  obtain ⟨bits, exact', count⟩ := counted
  have bound := exact'.card_lt sound
  have below := length_ended_le fewer exact'
  unfold Settled
  rw [fewer.count, count, ← UInt64.ofNat_sub below,
    UInt64.toNat_ofNat_of_lt' (by omega : bits.card - _ < 2 ^ 64),
    UInt64.toNat_ofNat_of_lt' bound]
  omega

/-! ### The operations -/

omit [DecidableEq P] in
theorem Ended.events (past : Ended s t fd event) (sound : s.Sound)
    (also : Event) :
    (t.fdContexts fd).events also =
      (!decide (also = event) && (s.fdContexts fd).events also) := by
  rw [← isSome_holder past.sound, ← isSome_holder sound, past.holder]
  by_cases here : also = event
  · subst here
    simp
  · rw [Function.update_of_ne (by simp [here])]
    simp [here]

omit [DecidableEq D] [DecidableEq P] in
theorem length_ended (s t : State D P F C) (fd : D) :
    (Waiters.ended s t fd).length =
      ((s.fdContexts fd).events .READ && !(t.fdContexts fd).events .READ).toNat +
        ((s.fdContexts fd).events .WRITE &&
          !(t.fdContexts fd).events .WRITE).toNat := by
  simp only [Waiters.ended, List.length_map, List.filter_cons, List.filter_nil]
  cases (s.fdContexts fd).events .READ && !(t.fdContexts fd).events .READ <;>
    cases (s.fdContexts fd).events .WRITE && !(t.fdContexts fd).events .WRITE <;>
    rfl

omit [DecidableEq P] in
theorem Ended.length (past : Ended s t fd event) (sound : s.Sound) :
    UInt64.ofNat (Waiters.ended s t fd).length = s.pending fd event := by
  rw [length_ended, past.events sound, past.events sound, pending]
  cases event <;> cases (s.fdContexts fd).events .READ <;>
    cases (s.fdContexts fd).events .WRITE <;> rfl

omit [DecidableEq P] in
theorem Ended.fewer (past : Ended s t fd event) (sound : s.Sound)
    (count : t.pendingEventCount = s.pendingEventCount - s.pending fd event) :
    Fewer s t fd where
  others := past.others
  events := by
    intro also set
    rw [past.events sound] at set
    exact (Bool.and_eq_true_iff.mp set).2
  count := by rw [past.length sound, count]

omit [DecidableEq P] in
theorem Cleared.events (past : Cleared s t fd) (also : Event) :
    (t.fdContexts fd).events also = false := by
  rw [← isSome_holder past.sound, past.holder, if_pos rfl]
  rfl

omit [DecidableEq P] in
theorem Cleared.fewer (past : Cleared s t fd)
    (count : t.pendingEventCount =
      s.pendingEventCount - s.pending fd .READ - s.pending fd .WRITE) :
    Fewer s t fd where
  others := past.others
  events := by
    intro also set
    rw [past.events] at set
    cases set
  count := by
    have one (event : Event) : s.pending fd event = UInt64.ofNat
        ((s.fdContexts fd).events event && !(t.fdContexts fd).events event).toNat := by
      rw [past.events, pending]
      cases (s.fdContexts fd).events event <;> rfl
    rw [count, length_ended, UInt64.ofNat_add, one, one]
    grind

omit [DecidableEq P] in
theorem delEvent_fewer (sound : s.Sound) (fd : D) (event : Event) :
    Fewer s (s.delEvent fd event).2 fd := by
  refine (delEvent_ended sound fd event).fewer sound ?_
  unfold delEvent pending
  split
  · rfl
  · exact (UInt64.sub_zero _).symm

theorem cancelEvent_fewer (sound : s.Sound) (fd : D) (event : Event) :
    ∃ found t, s.cancelEvent fd event = some (found, t, []) ∧
      Fewer s t fd := by
  obtain ⟨found, t, cancelled, count⟩ : ∃ found t,
      s.cancelEvent fd event = some (found, t, []) ∧
        t.pendingEventCount = s.pendingEventCount - s.pending fd event := by
    rw [cancelEvent_eq]
    unfold pending
    split
    · exact ⟨_, _, rfl, rfl⟩
    · exact ⟨_, _, rfl, (UInt64.sub_zero _).symm⟩
  exact ⟨found, t, cancelled,
    (cancelEvent_ended sound cancelled).fewer sound count⟩

theorem cancelAll_fewer (sound : s.Sound) (fd : D) :
    ∃ found t tasks, s.cancelAll fd = some (found, t, tasks) ∧
      Fewer s t fd := by
  obtain ⟨t, cancelled, past, count⟩ := cancelAll_cleared sound fd
  exact ⟨_, t, _, cancelled, past.fewer count⟩

theorem dispatch_fewer (sound : s.Sound) (fd : D) (p : P) (length : UInt32) :
    ∃ t tasks lowered, s.dispatch fd p length = some (t, tasks, lowered) ∧
      Fewer s t fd := by
  cases waits : s.waiter fd p with
  | none =>
      refine ⟨_, _, _, dispatch_of_not_slot length (waiter_eq_none sound waits),
        fun _ _ => rfl, fun _ set => set, ?_⟩
      have nothing : Waiters.ended s (s.setContext p
          { s.contexts p with dwDataLength := length }) fd = [] := by
        simp [Waiters.ended, setContext]
      rw [nothing]
      exact (UInt64.sub_zero _).symm
  | some task =>
      obtain ⟨event, held, -⟩ := waiter_eq_some waits
      refine ⟨_, _, _, dispatch_of_slot sound length held, ?_⟩
      have stored := sound.transfer p length
      have still : (s.setContext p { s.contexts p with
          dwDataLength := length }).slot fd event = some p := held
      have set := (FdContext.slot_eq_some.mp held).1
      obtain ⟨also, fired, past, -⟩ := triggerEvent_ended stored fd event
      rw [triggerEvent_of_slot stored still] at fired
      obtain ⟨rfl, -⟩ := Prod.mk.inj (Option.some.inj fired)
      have fewer := past.lower.fewer stored (by
        simp only [pending, set, setContext, if_true]
        rfl)
      exact ⟨fewer.others, fewer.events, fewer.count⟩

/-- A packet with no registered context is not an event. -/
theorem dispatch_stray {p : P} (length : UInt32)
    (stray : ∀ event, (s.fdContexts fd).events event = true →
      (s.fdContexts fd).getContext event ≠ some p) :
    ∃ t, s.dispatch fd p length = some (t, [], none) ∧
      t.fdContexts = s.fdContexts ∧ t.pendingEventCount = s.pendingEventCount ∧
      ∀ q, { t.contexts q with dwDataLength := (s.contexts q).dwDataLength } =
        s.contexts q := by
  refine ⟨_, dispatch_of_not_slot length ?_, rfl, rfl, fun q => ?_⟩
  · intro event held
    obtain ⟨set, ctx⟩ := FdContext.slot_eq_some.mp held
    exact stray event set ctx
  · rcases eq_or_ne q p with rfl | different
    · simp [setContext]
    · simp [setContext, different]

/-- What a set bit stands for can be scheduled. -/
def Ready (s : State D P F C) : Prop :=
  ∀ fd event, (s.fdContexts fd).events event = true → ∃ p,
    (s.fdContexts fd).getContext event = some p ∧
    (s.contexts p).scheduler = true ∧
    ((s.contexts p).fiber.isSome ∨ (s.contexts p).cb.isSome)

omit [DecidableEq D] [DecidableEq P] in
theorem Sound.readied (sound : s.Sound) : s.Ready := by
  intro fd event set
  obtain ⟨p, held⟩ := sound.present fd event set
  obtain ⟨scheduler, task, waits⟩ := sound.ready fd event p held
  refine ⟨p, (FdContext.slot_eq_some.mp held).2, scheduler, ?_⟩
  unfold EventContext.task at waits
  cases cb : (s.contexts p).cb with
  | some cb => exact .inr rfl
  | none =>
      rw [cb] at waits
      obtain ⟨fiber, present, -⟩ := Option.map_eq_some_iff.mp waits
      rw [present]
      exact .inl rfl

end State

namespace Waiters

variable {D P F C : Type} [DecidableEq D]

theorem counted_step [DecidableEq P] {w next : Waiters D P F C}
    {action : Action D P F C} (sound : w.io.Sound) (counted : w.io.Counted)
    (taken : w.step action = some next) : next.io.Counted := by
  cases action with
  | createEventContext p =>
      cases taken
      exact counted.same rfl rfl
  | addEvent fd event p task =>
      obtain ⟨io, added, rfl⟩ := Option.map_eq_some_iff.mp taken
      exact counted.addEvent added
  | delEvent fd event =>
      cases taken
      exact counted.fewer (State.delEvent_fewer sound fd event)
  | cancelEvent fd event =>
      obtain ⟨result, cancelled, rfl⟩ := Option.map_eq_some_iff.mp taken
      obtain ⟨found, io, same, fewer⟩ := State.cancelEvent_fewer sound fd event
      cases same.symm.trans cancelled
      exact counted.fewer fewer
  | cancelAll fd =>
      obtain ⟨result, cancelled, rfl⟩ := Option.map_eq_some_iff.mp taken
      obtain ⟨found, io, tasks, same, fewer⟩ := State.cancelAll_fewer sound fd
      cases same.symm.trans cancelled
      exact counted.fewer fewer
  | dispatch fd overlapped dwTrans =>
      obtain ⟨result, dispatched, rfl⟩ := Option.map_eq_some_iff.mp taken
      obtain ⟨io, tasks, lowered, same, fewer⟩ :=
        State.dispatch_fewer sound fd overlapped dwTrans
      cases same.symm.trans dispatched
      exact counted.fewer fewer

/-- A new `IOManager`. -/
structure Started [DecidableEq P] (w : Waiters D P F C) : Prop where
  opened : Opened w
  count : w.io.pendingEventCount = 0

omit [DecidableEq D] in
theorem Started.counted [DecidableEq P] {w : Waiters D P F C}
    (started : Started w) : w.io.Counted := by
  refine ⟨∅, fun key => ?_, ?_⟩
  · rw [started.opened.fdContexts]
    simp [FdContext.new]
  · rw [started.count]
    rfl

theorem counted_run [DecidableEq P] {w : Waiters D P F C}
    (reached : Reach Started (StepWhen step Allocated) w) :
    Kept w ∧ w.io.Counted := by
  refine @Reach.invariant _ _ _ _ (fun w => Kept w ∧ w.io.Counted) ?_ ?_ w reached
  · intro w started
    exact ⟨started.opened.kept, started.counted⟩
  · rintro w action next ⟨kept, counted⟩ ⟨allocated, taken⟩
    exact ⟨kept_step kept allocated taken, counted_step kept.sound counted taken⟩

variable {w : Waiters D Address F C}

/-- In every state reached the count is that of the set bits, each bit has a
context that can be triggered, every operation completes and lowers the count by
what it clears, and a stray packet changes no event. -/
theorem pending_events (reached : Reach Started (StepWhen step Allocated) w) :
    (∃ bits, w.io.Bits bits ∧ w.io.pendingEventCount.toNat = bits.card) ∧
    w.io.Ready ∧
    (∀ fd event, (w.io.triggerEvent fd event).isSome) ∧
    (∀ fd event, w.io.Settled (w.io.delEvent fd event).2 fd) ∧
    (∀ fd event, ∃ found t tasks,
      w.io.cancelEvent fd event = some (found, t, tasks) ∧ w.io.Settled t fd) ∧
    (∀ fd, ∃ found t tasks,
      w.io.cancelAll fd = some (found, t, tasks) ∧ w.io.Settled t fd) ∧
    (∀ fd overlapped dwTrans, ∃ t tasks lowered,
      w.io.dispatch fd overlapped dwTrans = some (t, tasks, lowered) ∧
        w.io.Settled t fd) ∧
    ∀ fd overlapped dwTrans,
      (∀ event, (w.io.fdContexts fd).events event = true →
        (w.io.fdContexts fd).getContext event ≠ some overlapped) →
      ∃ t, w.io.dispatch fd overlapped dwTrans = some (t, [], none) ∧
        t.fdContexts = w.io.fdContexts ∧
        t.pendingEventCount = w.io.pendingEventCount ∧
        ∀ p, { t.contexts p with
          dwDataLength := (w.io.contexts p).dwDataLength } = w.io.contexts p := by
  obtain ⟨⟨sound, -⟩, counted⟩ := counted_run reached
  refine ⟨counted.toNat sound, sound.readied, ?_, ?_, ?_, ?_, ?_, ?_⟩
  · intro fd event
    obtain ⟨t, triggered, -⟩ := State.triggerEvent_ended sound fd event
    rw [triggered]
    rfl
  · intro fd event
    exact (State.delEvent_fewer sound fd event).settled sound counted
  · intro fd event
    obtain ⟨found, t, cancelled, fewer⟩ := State.cancelEvent_fewer sound fd event
    exact ⟨found, t, [], cancelled, fewer.settled sound counted⟩
  · intro fd
    obtain ⟨found, t, tasks, cancelled, fewer⟩ := State.cancelAll_fewer sound fd
    exact ⟨found, t, tasks, cancelled, fewer.settled sound counted⟩
  · intro fd overlapped dwTrans
    obtain ⟨t, tasks, lowered, dispatched, fewer⟩ :=
      State.dispatch_fewer sound fd overlapped dwTrans
    exact ⟨t, tasks, lowered, dispatched, fewer.settled sound counted⟩
  · intro fd overlapped dwTrans stray
    exact State.dispatch_stray dwTrans stray

/-- One descriptor waits for both events, a packet ends the read. -/
theorem pending_events_both :
    ∃ w : Waiters Unit Address Nat Unit,
      w.io.pendingEventCount = 1 ∧
      ∃ bits, w.io.Bits bits ∧ w.io.pendingEventCount.toNat = bits.card := by
  let start : Waiters Unit Address Nat Unit :=
    ⟨⟨fun _ => .new, fun _ => .new, 0⟩, .empty, []⟩
  let actions : List (Action Unit Address Nat Unit) :=
    [.createEventContext ⟨8, by decide⟩,
      .addEvent () .READ ⟨8, by decide⟩ (.fiber 7),
      .createEventContext ⟨16, by decide⟩,
      .addEvent () .WRITE ⟨16, by decide⟩ (.fiber 8),
      .dispatch () ⟨8, by decide⟩ 12, .dispatch () ⟨8, by decide⟩ 0]
  obtain ⟨w, ran, count⟩ : ∃ w, exec (guarded step Allocated) start actions =
      some w ∧ w.io.pendingEventCount = 1 := ⟨_, rfl, by decide⟩
  have started : Started start := ⟨⟨fun _ => rfl, rfl, rfl⟩, rfl⟩
  exact ⟨w, count, (pending_events (reach_guarded (.start _ started) ran)).1⟩

end Waiters

end Sylar.IOManager
