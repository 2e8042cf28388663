import Mathlib.Data.Fintype.Basic
import Sylar.IOManager.Registered

namespace Sylar.IOManager

open Logic

/-! The passes of one worker through `idle`, over any outcomes of its waits and
with the operations of other threads between them. The callbacks of expired
timers, which a pass also schedules, are left out. -/

def WSA_WAIT_TIMEOUT : UInt32 := 258

def INFINITE : UInt32 := 0xFFFFFFFF

def MAX_TIMEOUT : UInt64 := 3000

inductive Outcome (D P : Type)
  | timeout
  /-- a packet with `INTERNAL_NOTIFY_KEY` -/
  | notified
  | completed (key : D) (overlapped : P) (dwTrans : UInt32)
  /-- a zero result with an overlapped pointer -/
  | failed (key : D) (overlapped : P) (erro_code : UInt32)
  deriving DecidableEq, Repr

/-- How long a call with a timeout may take, in milliseconds. -/
def Outcome.Takes (timeout : UInt32) (elapsed : Nat) : Outcome D P → Prop
  | .timeout => timeout ≠ INFINITE ∧ elapsed = timeout.toNat
  | _ => timeout ≠ INFINITE → elapsed ≤ timeout.toNat

instance (timeout : UInt32) (elapsed : Nat) :
    (outcome : Outcome D P) → Decidable (outcome.Takes timeout elapsed)
  | .timeout =>
      inferInstanceAs (Decidable (timeout ≠ INFINITE ∧ elapsed = timeout.toNat))
  | .notified =>
      inferInstanceAs (Decidable (timeout ≠ INFINITE → elapsed ≤ timeout.toNat))
  | .completed _ _ _ =>
      inferInstanceAs (Decidable (timeout ≠ INFINITE → elapsed ≤ timeout.toNat))
  | .failed _ _ _ =>
      inferInstanceAs (Decidable (timeout ≠ INFINITE → elapsed ≤ timeout.toNat))

/-- The timeout before a wait: the comparison is with the low 32 bits, taken as
an `int`. -/
def clamp (next_timeout : UInt64) : UInt64 :=
  if next_timeout ≠ ~~~0 then
    if next_timeout.toUInt32.toInt32 > 3000 then MAX_TIMEOUT else next_timeout
  else MAX_TIMEOUT

inductive Entry (F C : Type)
  /-- a packet was dequeued, with the task that waits for it and the count of
  pending events at that moment -/
  | dequeued (task : Task F C) (pending : UInt64)
  | scheduled (task : Task F C)
  | lowered (pending : UInt64)
  deriving DecidableEq, Repr

namespace Idle

/-- Where the worker is in `idle`. -/
inductive Pc (D P : Type)
  | top
  | waiting (next_timeout : UInt64)
  /-- after the inner loop, with the packet it is to dispatch -/
  | woken (packet : Option (D × P × UInt32))
  deriving DecidableEq, Repr

structure State (D P F C : Type) where
  io : IOManager.State D P F C
  pc : Pc D P
  /-- the time to the earliest timer that the pass read at its start -/
  deadline : Option Nat
  waited : Nat
  log : List (Entry F C)

inductive Action (D P F C : Type)
  | stopping (next_timeout : UInt64)
  | getQueuedCompletionStatus (outcome : Outcome D P) (elapsed : Nat)
  | dispatch
  | createEventContext (p : P)
  | addEvent (fd : D) (event : Event) (p : P) (task : Task F C)
  | delEvent (fd : D) (event : Event)
  | cancelEvent (fd : D) (event : Event)
  | cancelAll (fd : D)

variable {D P F C : Type} [DecidableEq D] [DecidableEq P] [Fintype D]

/-- Whether the worker is blocked or out of `idle`. -/
def Pc.away : Pc D P → Bool
  | .woken _ => false
  | _ => true

/-- No `FdContext` refers to the event context. -/
def Free (io : IOManager.State D P F C) (p : P) : Prop :=
  ∀ fd, (io.fdContexts fd).read ≠ some p ∧ (io.fdContexts fd).write ≠ some p

instance (io : IOManager.State D P F C) (p : P) : Decidable (Free io p) :=
  inferInstanceAs (Decidable (∀ fd, (io.fdContexts fd).read ≠ some p ∧
    (io.fdContexts fd).write ≠ some p))

def taken (io : IOManager.State D P F C) (fd : D) (p : P) : List (Entry F C) :=
  ((io.waiter fd p).map fun task => .dequeued task io.pendingEventCount).toList

def wait (s : State D P F C) (next_timeout : UInt64) (elapsed : Nat) :
    Outcome D P → State D P F C
  | .timeout => { s with pc := .woken none, waited := s.waited + elapsed }
  | .notified => { s with pc := .woken none, waited := s.waited + elapsed }
  | .completed key overlapped dwTrans => { s with
      pc := .woken (some (key, overlapped, dwTrans))
      waited := s.waited + elapsed
      log := s.log ++ taken s.io key overlapped }
  -- any other error is waited out with the same timeout
  | .failed key overlapped erro_code => { s with
      pc := if erro_code = WSA_WAIT_TIMEOUT then .woken none
        else .waiting next_timeout
      waited := s.waited + elapsed
      log := s.log ++ taken s.io key overlapped }

def step (s : State D P F C) : Action D P F C → Option (State D P F C)
  | .stopping next_timeout =>
      match s.pc with
      | .top => some { s with
          pc := .waiting next_timeout
          deadline :=
            if next_timeout = ~~~0 then none else some next_timeout.toNat
          waited := 0 }
      | _ => none
  | .getQueuedCompletionStatus outcome elapsed =>
      match s.pc with
      | .waiting next_timeout =>
          if outcome.Takes (clamp next_timeout).toUInt32 elapsed then
            some (wait s (clamp next_timeout) elapsed outcome)
          else none
      | _ => none
  | .dispatch =>
      match s.pc with
      | .woken none => some { s with pc := .top }
      | .woken (some (fd, overlapped, dwTrans)) =>
          (s.io.dispatch fd overlapped dwTrans).map fun (io, tasks, lowered) =>
            { s with
              io := io
              pc := .top
              log := s.log ++ tasks.map .scheduled ++
                (lowered.map .lowered).toList }
      | _ => none
  | .createEventContext p =>
      if s.pc.away ∧ Free s.io p then
        some { s with io := s.io.createEventContext p }
      else none
  | .addEvent fd event p task =>
      if s.pc.away then
        (s.io.addEvent fd event p task).map fun io => { s with io := io }
      else none
  | .delEvent fd event =>
      if s.pc.away then some { s with io := (s.io.delEvent fd event).2 } else none
  | .cancelEvent fd event =>
      if s.pc.away then
        (s.io.cancelEvent fd event).map fun (_, io, _) => { s with io := io }
      else none
  | .cancelAll fd =>
      if s.pc.away then
        (s.io.cancelAll fd).map fun (_, io, _) => { s with io := io }
      else none

structure Initial (s : State D P F C) : Prop where
  fdContexts : ∀ fd, s.io.fdContexts fd = .new
  pc : s.pc = .top
  deadline : s.deadline = none
  log : s.log = []

/-- Every packet of a registered event had its task scheduled, and the count
lowered, before the next one was dequeued. -/
def Settled (log : List (Entry F C)) : Prop :=
  ∃ served : List (Task F C × UInt64), log = served.flatMap fun (task, pending) =>
    [.dequeued task pending, .scheduled task, .lowered (pending - 1)]

def Pc.timeout : Pc D P → UInt32
  | .waiting next_timeout => (clamp next_timeout).toUInt32
  | _ => 0

/-- No failed completion is one that a registered event waits for, one that
comes in a pass with a timer leaves time for another wait, and no pass starts
with a timer whose remaining time reads as `INFINITE` in its low 32 bits. -/
def Unfailed (s : State D P F C) : Action D P F C → Prop
  | .stopping next_timeout => next_timeout ≠ ~~~0 → next_timeout.toUInt32 ≠ INFINITE
  | .getQueuedCompletionStatus (.failed key overlapped erro_code) elapsed =>
      (s.io.waiter key overlapped).isNone ∧
        (erro_code ≠ WSA_WAIT_TIMEOUT → ∀ time ∈ s.deadline,
          s.waited + elapsed + s.pc.timeout.toNat ≤ time)
  | _ => True

instance (s : State D P F C) : (action : Action D P F C) → Decidable (Unfailed s action)
  | .stopping next_timeout => inferInstanceAs
      (Decidable (next_timeout ≠ ~~~0 → next_timeout.toUInt32 ≠ INFINITE))
  | .getQueuedCompletionStatus (.failed key overlapped erro_code) elapsed =>
      inferInstanceAs (Decidable ((s.io.waiter key overlapped).isNone ∧
        (erro_code ≠ WSA_WAIT_TIMEOUT → ∀ time ∈ s.deadline,
          s.waited + elapsed + s.pc.timeout.toNat ≤ time)))
  | .getQueuedCompletionStatus .timeout _ => inferInstanceAs (Decidable True)
  | .getQueuedCompletionStatus .notified _ => inferInstanceAs (Decidable True)
  | .getQueuedCompletionStatus (.completed _ _ _) _ => inferInstanceAs (Decidable True)
  | .dispatch => inferInstanceAs (Decidable True)
  | .createEventContext _ => inferInstanceAs (Decidable True)
  | .addEvent _ _ _ _ => inferInstanceAs (Decidable True)
  | .delEvent _ _ => inferInstanceAs (Decidable True)
  | .cancelEvent _ _ => inferInstanceAs (Decidable True)
  | .cancelAll _ => inferInstanceAs (Decidable True)

theorem toNat_of_toInt32_gt {word : UInt32} (above : word.toInt32 > 3000) :
    3000 < word.toNat := by
  have signed := Int32.lt_iff_toInt_lt.mp above
  have value : word.toInt32.toInt = (word.toNat : Int).bmod (2 ^ 32) := by
    rw [← Int32.toInt_toBitVec, UInt32.toBitVec_toInt32,
      BitVec.toInt_eq_toNat_bmod]
    rfl
  have bound : (3000 : Int32).toInt = 3000 := by decide
  rw [value, bound, Int.bmod_def] at signed
  omega

/-- A finite timeout ends by the deadline it was made from. -/
theorem clamp_le {next_timeout : UInt64} (timer : next_timeout ≠ ~~~0)
    (finite : next_timeout.toUInt32 ≠ INFINITE) :
    (clamp next_timeout).toUInt32 ≠ INFINITE ∧
      (clamp next_timeout).toUInt32.toNat ≤ next_timeout.toNat := by
  have low : next_timeout.toUInt32.toNat ≤ next_timeout.toNat := by
    rw [UInt64.toNat_toUInt32]
    exact Nat.mod_le _ _
  unfold clamp
  rw [if_pos timer]
  split
  · rename_i above
    refine ⟨by decide, ?_⟩
    exact (toNat_of_toInt32_gt above).le.trans low
  · exact ⟨finite, low⟩

theorem clamp_clamp (next_timeout : UInt64) :
    clamp (clamp next_timeout) = clamp next_timeout := by
  have most : clamp MAX_TIMEOUT = MAX_TIMEOUT := by decide
  by_cases timer : next_timeout ≠ ~~~0
  · by_cases above : next_timeout.toUInt32.toInt32 > 3000
    · have cut : clamp next_timeout = MAX_TIMEOUT := by
        rw [clamp, if_pos timer, if_pos above]
      rw [cut, most]
    · have kept : clamp next_timeout = next_timeout := by
        rw [clamp, if_pos timer, if_neg above]
      rw [kept, kept]
  · have cut : clamp next_timeout = MAX_TIMEOUT := by
      rw [clamp, if_neg timer]
    rw [cut, most]

variable {s t : State D P F C}

def Place (s : State D P F C) : Prop :=
  match s.pc with
  | .top => Settled s.log
  | .waiting next_timeout => Settled s.log ∧ ∀ time, s.deadline = some time →
      (clamp next_timeout).toUInt32 ≠ INFINITE ∧
        s.waited + (clamp next_timeout).toUInt32.toNat ≤ time
  | .woken none => Settled s.log
  | .woken (some (fd, overlapped, _)) =>
      ∃ before, Settled before ∧ s.log = before ++ taken s.io fd overlapped

structure Inv (s : State D P F C) : Prop where
  sound : s.io.Sound
  within : ∀ time, s.deadline = some time → s.waited ≤ time
  place : Place s

theorem Settled.snoc {log : List (Entry F C)} (settled : Settled log)
    (task : Task F C) (pending : UInt64) :
    Settled (log ++ [.dequeued task pending] ++ [.scheduled task] ++
      [.lowered (pending - 1)]) := by
  obtain ⟨served, rfl⟩ := settled
  exact ⟨served ++ [(task, pending)], by simp⟩

omit [DecidableEq D] [Fintype D] in
/-- The other threads touch nothing of the pass while the worker is away. -/
theorem Place.io (place : Place s) (away : s.pc.away = true)
    (io : IOManager.State D P F C) : Place { s with io := io } := by
  unfold Place at place ⊢
  cases pc : s.pc with
  | top =>
      rw [pc] at place
      exact place
  | waiting next_timeout =>
      rw [pc] at place
      exact place
  | woken packet =>
      rw [pc] at away
      cases away

omit [DecidableEq D] [Fintype D] in
theorem Inv.operation (inv : Inv s) (away : s.pc.away = true)
    {io : IOManager.State D P F C} (sound : io.Sound) : Inv { s with io := io } :=
  ⟨sound, inv.within, inv.place.io away io⟩

theorem Inv.stopping (inv : Inv s) {next_timeout : UInt64}
    (finite : Unfailed s (.stopping next_timeout))
    (moved : step s (.stopping next_timeout) = some t) : Inv t := by
  have place := inv.place
  simp only [step] at moved
  unfold Place at place
  cases pc : s.pc with
  | top =>
      rw [pc] at moved place
      cases moved
      refine ⟨inv.sound, fun _ _ => Nat.zero_le _, place, ?_⟩
      intro time deadline
      simp only at deadline
      split at deadline
      · cases deadline
      · rename_i timer
        cases deadline
        rw [Nat.zero_add]
        exact clamp_le timer (finite timer)
  | waiting next_timeout =>
      rw [pc] at moved
      cases moved
  | woken packet =>
      rw [pc] at moved
      cases moved

theorem Inv.wait (inv : Inv s) {outcome : Outcome D P} {elapsed : Nat}
    (unfailed : Unfailed s (.getQueuedCompletionStatus outcome elapsed))
    (moved : step s (.getQueuedCompletionStatus outcome elapsed) = some t) :
    Inv t := by
  have place := inv.place
  simp only [step] at moved
  unfold Place at place
  cases pc : s.pc with
  | top =>
      rw [pc] at moved
      cases moved
  | woken packet =>
      rw [pc] at moved
      cases moved
  | waiting next_timeout =>
      rw [pc] at moved place
      obtain ⟨settled, finite⟩ := place
      simp only at moved
      split at moved
      · rename_i takes
        cases moved
        have within : ∀ time, s.deadline = some time →
            s.waited + elapsed ≤ time := by
          intro time deadline
          obtain ⟨bounded, least⟩ := finite time deadline
          have short : elapsed ≤ (clamp next_timeout).toUInt32.toNat := by
            cases outcome with
            | timeout => exact takes.2.le
            | _ => exact takes bounded
          omega
        cases outcome with
        | timeout => exact ⟨inv.sound, within, settled⟩
        | notified => exact ⟨inv.sound, within, settled⟩
        | completed key overlapped dwTrans =>
            exact ⟨inv.sound, within, s.log, settled, rfl⟩
        | failed key overlapped erro_code =>
            obtain ⟨stray, room⟩ := unfailed
            have unlogged : s.log ++ taken s.io key overlapped = s.log := by
              simp [taken, Option.isNone_iff_eq_none.mp stray]
            simp only [Idle.wait, unlogged]
            split
            · exact ⟨inv.sound, within, settled⟩
            · rename_i other
              refine ⟨inv.sound, within, settled, ?_⟩
              intro time deadline
              have fits := room other time deadline
              rw [pc] at fits
              rw [clamp_clamp]
              exact ⟨(finite time deadline).1, fits⟩
      · cases moved

theorem Inv.dispatch (inv : Inv s) (moved : step s .dispatch = some t) : Inv t := by
  have place := inv.place
  simp only [step] at moved
  unfold Place at place
  cases pc : s.pc with
  | top =>
      rw [pc] at moved
      cases moved
  | waiting next_timeout =>
      rw [pc] at moved
      cases moved
  | woken packet =>
      cases packet with
      | none =>
          rw [pc] at moved place
          cases moved
          exact ⟨inv.sound, inv.within, place⟩
      | some packet =>
          obtain ⟨fd, overlapped, dwTrans⟩ := packet
          rw [pc] at moved place
          obtain ⟨before, settled, log⟩ := place
          obtain ⟨⟨io, tasks, lowered⟩, dispatched, equal⟩ :=
            Option.map_eq_some_iff.mp moved
          cases equal
          refine ⟨inv.sound.dispatch dispatched, inv.within, ?_⟩
          change Settled (s.log ++ tasks.map .scheduled ++
            (lowered.map .lowered).toList)
          cases waits : s.io.waiter fd overlapped with
          | none =>
              rw [State.dispatch_of_not_slot dwTrans
                (State.waiter_eq_none inv.sound waits)] at dispatched
              cases dispatched
              rw [log]
              simpa [taken, waits] using settled
          | some task =>
              obtain ⟨event, held, ready⟩ := State.waiter_eq_some waits
              rw [State.dispatch_of_slot inv.sound dwTrans held] at dispatched
              cases dispatched
              rw [log, ready]
              simpa [taken, waits] using
                settled.snoc task s.io.pendingEventCount

theorem Inv.step (inv : Inv s) {action : Action D P F C}
    (unfailed : Unfailed s action) (moved : Idle.step s action = some t) : Inv t := by
  cases action with
  | stopping next_timeout => exact inv.stopping unfailed moved
  | getQueuedCompletionStatus outcome elapsed => exact inv.wait unfailed moved
  | dispatch => exact inv.dispatch moved
  | createEventContext p =>
      simp only [Idle.step] at moved
      split at moved
      · rename_i allowed
        cases moved
        refine inv.operation allowed.1 (inv.sound.createEventContext ?_)
        intro fd event held
        have ctx := (FdContext.slot_eq_some.mp held).2
        cases event with
        | READ => exact (allowed.2 fd).1 ctx
        | WRITE => exact (allowed.2 fd).2 ctx
      · cases moved
  | addEvent fd event p task =>
      simp only [Idle.step] at moved
      split at moved
      · rename_i away
        obtain ⟨io, added, rfl⟩ := Option.map_eq_some_iff.mp moved
        exact inv.operation away (inv.sound.addEvent added)
      · cases moved
  | delEvent fd event =>
      simp only [Idle.step] at moved
      split at moved
      · rename_i away
        cases moved
        exact inv.operation away (inv.sound.delEvent fd event)
      · cases moved
  | cancelEvent fd event =>
      simp only [Idle.step] at moved
      split at moved
      · rename_i away
        obtain ⟨⟨found, io, tasks⟩, cancelled, rfl⟩ := Option.map_eq_some_iff.mp moved
        exact inv.operation away (inv.sound.cancelEvent cancelled)
      · cases moved
  | cancelAll fd =>
      simp only [Idle.step] at moved
      split at moved
      · rename_i away
        obtain ⟨⟨found, io, tasks⟩, cancelled, rfl⟩ := Option.map_eq_some_iff.mp moved
        exact inv.operation away (inv.sound.cancelAll cancelled)
      · cases moved

omit [DecidableEq D] [Fintype D] in
theorem Initial.inv (initial : Initial s) : Inv s := by
  have empty : ∀ fd event, s.io.slot fd event = none := by
    intro fd event
    unfold State.slot
    rw [initial.fdContexts]
    rfl
  refine ⟨⟨?_, ?_, ?_⟩, ?_, ?_⟩
  · intro fd event set
    rw [initial.fdContexts] at set
    cases set
  · intro fd event p held
    rw [empty] at held
    cases held
  · intro fd event other also p held
    rw [empty] at held
    cases held
  · intro time deadline
    rw [initial.deadline] at deadline
    cases deadline
  · unfold Place
    rw [initial.pc]
    exact ⟨[], initial.log⟩

/-- In a run whose waits all meet the condition every packet of a registered
event is dispatched before the next one is dequeued, and no pass waits longer
than the time to the earliest timer it read. -/
theorem idle_dispatches {s : State D P F C}
    (reached : Reach Initial (StepWhen Idle.step Unfailed) s) :
    (∀ next_timeout, s.pc = .waiting next_timeout → Settled s.log) ∧
      ∀ time, s.deadline = some time → s.waited ≤ time := by
  have inv : Inv s := by
    refine @Reach.invariant _ _ _ _ Inv ?_ ?_ _ reached
    · intro s initial
      exact initial.inv
    · rintro s action t inv ⟨unfailed, moved⟩
      exact inv.step unfailed moved
  refine ⟨?_, inv.within⟩
  intro next_timeout pc
  have place := inv.place
  unfold Place at place
  rw [pc] at place
  exact place.1

def fresh : State Unit Unit Unit Unit where
  io := ⟨fun _ => .new, fun _ => .new, 0⟩
  pc := .top
  deadline := none
  waited := 0
  log := []

theorem fresh_initial : Initial fresh :=
  ⟨fun _ => rfl, rfl, rfl, rfl⟩

/-- A completion is dispatched, and the next pass comes to its wait. -/
theorem idle_dispatches_read :
    ∃ s : State Unit Unit Unit Unit,
      s.log = [.dequeued (.fiber ()) 1, .scheduled (.fiber ()), .lowered 0] ∧
      (∀ next_timeout, s.pc = .waiting next_timeout → Settled s.log) ∧
      ∀ time, s.deadline = some time → s.waited ≤ time := by
  obtain ⟨s, ran, log⟩ : ∃ s, exec (guarded Idle.step Unfailed) fresh
      [.createEventContext (), .stopping 5000,
        .getQueuedCompletionStatus (.failed () () 64) 1000,
        .addEvent () .READ () (.fiber ()),
        .getQueuedCompletionStatus (.completed () () 12) 2500, .dispatch,
        .stopping 40] = some s ∧
      s.log = [.dequeued (.fiber ()) 1, .scheduled (.fiber ()), .lowered 0] :=
    ⟨_, rfl, rfl⟩
  exact ⟨s, log, idle_dispatches (reach_guarded (.start fresh fresh_initial) ran)⟩

/-- The failed completion of a registered read is not dispatched, and a pass
whose wait ended with a failed completion waits on, past the deadline. -/
theorem idle_loses :
    (∃ s : State Unit Unit Unit Unit, Reach Initial (StepOf Idle.step) s ∧
      s.pc = .waiting 100 ∧ ¬ Settled s.log) ∧
    ∃ s : State Unit Unit Unit Unit, Reach Initial (StepOf Idle.step) s ∧
      s.deadline = some 100 ∧ s.waited = 160 := by
  refine ⟨?_, ?_⟩
  · obtain ⟨s, ran, pc, log⟩ : ∃ s, exec Idle.step fresh
        [.createEventContext (), .addEvent () .READ () (.fiber ()),
          .stopping 100, .getQueuedCompletionStatus (.failed () () 64) 10] =
          some s ∧
        s.pc = .waiting 100 ∧ s.log = [.dequeued (.fiber ()) 1] :=
      ⟨_, rfl, rfl, rfl⟩
    refine ⟨s, reach_exec (.start fresh fresh_initial) ran, pc, ?_⟩
    rintro ⟨served, equal⟩
    rw [log] at equal
    cases served with
    | nil => cases equal
    | cons first rest => simp at equal
  · obtain ⟨s, ran, deadline, waited⟩ : ∃ s, exec Idle.step fresh
        [.stopping 100, .getQueuedCompletionStatus (.failed () () 64) 60,
          .getQueuedCompletionStatus .timeout 100] = some s ∧
        s.deadline = some 100 ∧ s.waited = 160 := ⟨_, rfl, rfl, rfl⟩
    exact ⟨s, reach_exec (.start fresh fresh_initial) ran, deadline, waited⟩

end Idle

end Sylar.IOManager
