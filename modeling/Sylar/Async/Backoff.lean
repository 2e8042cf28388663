import Mathlib.Algebra.Group.Nat.Defs
import Sylar.Async.Lifecycle

namespace Sylar.AsyncSocketStream.Backoff

open Logic Scheduler

/-! The delay of the timer that a failed `start` sets, over all that goes on with the
stream. -/

structure State (P E M : Type) where
  stream : Lifecycle.State P E M
  autoConnect : Bool
  tryConnectCount : UInt16
  /-- how long `m_timer` was set for -/
  timer : Option UInt64
  /-- the calls of `start` behind the loop, or at the end of it, with their result -/
  leaving : P → Option Bool
  /-- the calls that failed since the last one that did not -/
  failures : Nat

inductive Action (P E M : Type)
  | stream (action : Lifecycle.Action P E M)
  /-- the rest of `start`, from the count of the attempts on -/
  | leave (call : P)
  | close
  | setAutoConnect (v : Bool)

variable {P E M : Type} [DecidableEq P] [DecidableEq E]

namespace State

variable (s : State P E M)

/-- What else a step of `start` does: it cancels the timer when it has waited, and is
through at its last notification or when both fibers are scheduled. -/
def around (call : P) : Lifecycle.StartPc → State P E M
  | .owns => { s with timer := none }
  | .giveSecond =>
      { s with leaving := Function.update s.leaving call (some false) }
  | .startWrite =>
      { s with leaving := Function.update s.leaving call (some true) }
  | _ => s

def wait_ts (tryConnectCount : UInt16) : UInt64 :=
  let wait_ts := tryConnectCount.toUInt64 * 2 * 50
  if wait_ts > 2000 then 2000 else wait_ts

def leave (call : P) : Bool → State P E M
  | true => { s with
      leaving := Function.update s.leaving call none
      tryConnectCount := 0
      failures := 0 }
  | false => { s with
      leaving := Function.update s.leaving call none
      tryConnectCount := s.tryConnectCount + 1
      timer := if s.autoConnect then some (wait_ts (s.tryConnectCount + 1)) else s.timer
      failures := s.failures + 1 }

def step : Action P E M → Option (State P E M)
  | .stream action => (s.stream.step action).map fun stream =>
      match action with
      | .start call _ => { s.around call (s.stream.start call) with stream := stream }
      | _ => { s with stream := stream }
  | .leave call => (s.leaving call).map (s.leave call)
  | .close => (s.stream.step .close).map fun stream =>
      { s with stream := stream, autoConnect := false, timer := none }
  | .setAutoConnect v => some { s with autoConnect := v }

structure Initial (s : State P E M) : Prop where
  stream : s.stream.Initial
  autoConnect : s.autoConnect = false
  tryConnectCount : s.tryConnectCount = 0
  timer : s.timer = none
  leaving : ∀ call, s.leaving call = none
  failures : s.failures = 0

/-- The count is the number of failures as far as it has room for it. -/
def Counts (s : State P E M) : Prop :=
  s.tryConnectCount = UInt16.ofNat s.failures

variable {s}

omit [DecidableEq E] in
theorem Counts.leave (counts : s.Counts) (call : P) (result : Bool) :
    (s.leave call result).Counts := by
  cases result with
  | true => rfl
  | false =>
      unfold Counts at counts ⊢
      simp [State.leave, counts]

theorem Counts.step (counts : s.Counts) {action : Action P E M}
    {next : State P E M} (taken : s.step action = some next) : next.Counts := by
  cases action with
  | stream action =>
      obtain ⟨stream, -, rfl⟩ := Option.map_eq_some_iff.mp taken
      cases action with
      | start call outcome =>
          dsimp only
          cases s.stream.start call <;> exact counts
      | read | write | enqueue | notify | close => exact counts
  | leave call =>
      obtain ⟨result, -, rfl⟩ := Option.map_eq_some_iff.mp taken
      exact counts.leave call result
  | close =>
      cases taken
      exact counts
  | setAutoConnect v =>
      cases taken
      exact counts

theorem counts_reached (reached : Reach Initial (StepOf step) s) : s.Counts := by
  apply reached.invariant
  · intro s initial
    rw [Counts, initial.tryConnectCount, initial.failures]
    rfl
  · intro s action next counts taken
    exact counts.step taken

theorem wait_ts_toNat (tryConnectCount : UInt16) :
    (wait_ts tryConnectCount).toNat = min (100 * tryConnectCount.toNat) 2000 := by
  have small := tryConnectCount.toNat_lt
  have product : (tryConnectCount.toUInt64 * 2 * 50).toNat =
      100 * tryConnectCount.toNat := by
    simp
    omega
  unfold wait_ts
  simp only [gt_iff_lt, UInt64.lt_iff_toNat_lt, product]
  split
  · rename_i long
    simp at long ⊢
    omega
  · rename_i short
    simp at short
    rw [product]
    omega

/-- The delay is computed from what the count can hold of the failures. -/
theorem leave_timer (reached : Reach Initial (StepOf step) s)
    (auto : s.autoConnect = true) {call : P} (failed : s.leaving call = some false)
    {next : State P E M} (taken : s.step (.leave call) = some next) :
    next.timer.map UInt64.toNat =
      some (min (100 * (next.failures % 2 ^ 16)) 2000) := by
  have after : next = s.leave call false := by
    simpa [step, failed] using taken.symm
  have counts := (counts_reached reached).leave call false
  rw [← after, Counts] at counts
  have delay : next.timer = some (wait_ts next.tryConnectCount) := by
    rw [after]
    simp [leave, auto]
  rw [delay, Option.map_some, wait_ts_toNat, counts, UInt16.toNat_ofNat']

theorem backoff_iff (reached : Reach Initial (StepOf step) s)
    (auto : s.autoConnect = true) {call : P} (failed : s.leaving call = some false)
    {next : State P E M} (taken : s.step (.leave call) = some next) :
    next.timer.map UInt64.toNat = some (min (100 * next.failures) 2000) ↔
      next.failures < 2 ^ 16 ∨ 20 ≤ next.failures % 2 ^ 16 := by
  rw [leave_timer reached auto failed taken, Option.some_inj]
  omega

section Outage

/-- The peer is down: every `start` before `call` has failed, `call` is at a place
where no other call waits or runs, and those behind it are still to come. -/
structure Down (s : State Nat E M) (call : Nat) (place : Lifecycle.StartPc)
    (permits : Nat) : Prop where
  reached : Reach Initial (StepOf step) s
  autoConnect : s.autoConnect = true
  connected : s.stream.connected = false
  waitSem : s.stream.waitSem = ⟨[], permits⟩
  waiters : s.stream.sem.waiters = []
  here : s.stream.start call = place
  ready : ∀ later > call, s.stream.start later = .ready
  failures : s.failures = call

section Attempt

variable {s : State Nat E M} {call : Nat}

theorem Down.move {place after : Lifecycle.StartPc} {permits left steps : Nat}
    {tried : State Nat E M} (down : s.Down call place permits)
    (ran : exec step s (List.replicate steps (.stream (.start call .fail))) =
      some tried)
    (autoConnect : tried.autoConnect = true)
    (connected : tried.stream.connected = false)
    (waitSem : tried.stream.waitSem = ⟨[], left⟩)
    (waiters : tried.stream.sem.waiters = [])
    (start : tried.stream.start = Function.update s.stream.start call after)
    (failures : tried.failures = call) : tried.Down call after left where
  reached := reach_exec down.reached ran
  autoConnect := autoConnect
  connected := connected
  waitSem := waitSem
  waiters := waiters
  here := by rw [start, Function.update_self]
  ready later behind := by
    rw [start, Function.update_of_ne (Nat.ne_of_gt behind)]
    exact down.ready later behind
  failures := failures

/-- The call waits and does not reach the peer. -/
theorem Down.reconnect (down : s.Down call .ready 2) :
    ∃ tried : State Nat E M, tried.Down call (.closing .callback) 0 := by
  obtain ⟨tried, ran, autoConnect, connected, waitSem, waiters, start, failures⟩ :
      ∃ tried, exec step s (List.replicate 5 (.stream (.start call .fail))) =
        some tried ∧ tried.autoConnect = true ∧ tried.stream.connected = false ∧
        tried.stream.waitSem = ⟨[], 0⟩ ∧ tried.stream.sem.waiters = [] ∧
        tried.stream.start =
          Function.update s.stream.start call (.closing .callback) ∧
        tried.failures = call := by
    simp [exec, step, List.replicate, Lifecycle.State.step, Lifecycle.State.startStep,
      Lifecycle.State.setStart, Lifecycle.State.waitSemWait, around, down.here,
      down.autoConnect, down.connected, down.waitSem, down.waiters, down.failures]
  exact ⟨tried,
    down.move ran autoConnect connected waitSem waiters start failures⟩

/-- The call closes the stream and gives its permits back. -/
theorem Down.close (down : s.Down call (.closing .callback) 0) :
    ∃ tried : State Nat E M, tried.Down call .done 2 ∧
      tried.leaving call = some false := by
  obtain ⟨tried, ran, autoConnect, connected, waitSem, waiters, start, failures,
      leaving⟩ :
      ∃ tried, exec step s (List.replicate 6 (.stream (.start call .fail))) =
        some tried ∧ tried.autoConnect = true ∧ tried.stream.connected = false ∧
        tried.stream.waitSem = ⟨[], 2⟩ ∧ tried.stream.sem.waiters = [] ∧
        tried.stream.start = Function.update s.stream.start call .done ∧
        tried.failures = call ∧ tried.leaving call = some false := by
    simp [exec, step, List.replicate, Lifecycle.State.step, Lifecycle.State.startStep,
      Lifecycle.State.setStart, Lifecycle.State.waitSemNotify,
      Lifecycle.State.innerClose, Lifecycle.State.semNotify, around, down.here,
      down.autoConnect, down.waitSem, down.waiters, down.failures]
  exact ⟨tried,
    down.move ran autoConnect connected waitSem waiters start failures, leaving⟩

theorem Down.fail (down : s.Down call .ready 2) :
    ∃ tried next : State Nat E M, Reach Initial (StepOf step) tried ∧
      tried.autoConnect = true ∧ tried.leaving call = some false ∧
      tried.step (.leave call) = some next ∧ next.Down (call + 1) .ready 2 := by
  obtain ⟨closing, unreached⟩ := down.reconnect
  obtain ⟨tried, closed, leaving⟩ := unreached.close
  have taken : tried.step (.leave call) = some (tried.leave call false) := by
    simp [step, leaving]
  refine ⟨tried, _, closed.reached, closed.autoConnect, leaving, taken, ?_⟩
  exact {
    reached := .step tried (Action.leave call) _ closed.reached taken
    autoConnect := closed.autoConnect
    connected := closed.connected
    waitSem := closed.waitSem
    waiters := closed.waiters
    here := closed.ready (call + 1) (Nat.lt_succ_self call)
    ready := fun later behind => closed.ready later (Nat.lt_of_succ_lt behind)
    failures := congrArg Nat.succ closed.failures }

end Attempt

def opened : State Nat Unit Unit where
  stream := ⟨false, fun _ => .ready, fun _ => .absent, fun _ => .absent,
    fun _ => .ready, ⟨[], 2⟩, ⟨[], 0⟩, [], ∅, [], [], [], []⟩
  autoConnect := false
  tryConnectCount := 0
  timer := none
  leaving _ := none
  failures := 0

theorem opened_initial : Initial opened where
  stream := by constructor <;> simp [opened]
  autoConnect := rfl
  tryConnectCount := rfl
  timer := rfl
  leaving _ := rfl
  failures := rfl

theorem outage (count : Nat) : ∃ s : State Nat Unit Unit, s.Down count .ready 2 := by
  induction count with
  | zero =>
      have start : Reach Initial (StepOf step) opened := .start opened opened_initial
      refine ⟨{ opened with autoConnect := true }, ?_, rfl, rfl, rfl, rfl, rfl, ?_, rfl⟩
      · exact .step opened (Action.setAutoConnect true) _ start rfl
      · exact fun _ _ => rfl
  | succ count ih =>
      obtain ⟨s, down⟩ := ih
      obtain ⟨tried, next, -, -, -, -, after⟩ := down.fail
      exact ⟨next, after⟩

/-- The first failure is followed by a tenth of a second. -/
theorem backoff_iff_first :
    ∃ s next : State Nat Unit Unit, s.step (.leave 0) = some next ∧
      next.failures = 1 ∧ next.timer.map UInt64.toNat = some 100 := by
  obtain ⟨s, down⟩ := outage 0
  obtain ⟨tried, next, reached, auto, failed, taken, after⟩ := down.fail
  have first : next.failures = 1 := after.failures
  refine ⟨tried, next, taken, first, ?_⟩
  have delay := (backoff_iff reached auto failed taken).mpr (by omega)
  rwa [first] at delay

/-- After 2^16 failures in a row the next attempt follows at once. -/
theorem backoff_not :
    ∃ s next : State Nat Unit Unit, Reach Initial (StepOf step) s ∧
      s.autoConnect = true ∧ s.leaving 65535 = some false ∧
      s.step (.leave 65535) = some next ∧ next.failures = 65536 ∧
      next.timer.map UInt64.toNat = some 0 ∧
      next.timer.map UInt64.toNat ≠ some (min (100 * next.failures) 2000) := by
  obtain ⟨s, down⟩ := outage 65535
  obtain ⟨tried, next, reached, auto, failed, taken, after⟩ := down.fail
  have all : next.failures = 65536 := after.failures
  have delay := leave_timer reached auto failed taken
  rw [all] at delay
  refine ⟨tried, next, reached, auto, failed, taken, all, delay, ?_⟩
  rw [all, delay]
  simp

end Outage

end State

end Sylar.AsyncSocketStream.Backoff
