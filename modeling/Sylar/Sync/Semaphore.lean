import Mathlib.Tactic.Ring
import Sylar.Logic.Reach

namespace Sylar.Sync

open Logic

/-! `FiberSemaphore`. Each operation is one section under `m_mutex`; the yield of
`wait` comes after it. A waiter is a scheduler and a fiber. -/

structure FiberSemaphore (S F : Type) where
  waiters : List (S × F)
  concurrency : UInt64
  deriving DecidableEq, Repr

namespace FiberSemaphore

variable (sem : FiberSemaphore S F)

def new (initial_concurrency : UInt64) : FiberSemaphore S F :=
  ⟨[], initial_concurrency⟩

def tryWait : Bool × FiberSemaphore S F :=
  if 0 < sem.concurrency then
    (true, { sem with concurrency := sem.concurrency - 1 })
  else (false, sem)

/-- Whether the caller goes on without yielding. -/
def wait (self : S × F) : Bool × FiberSemaphore S F :=
  if 0 < sem.concurrency then
    (true, { sem with concurrency := sem.concurrency - 1 })
  else (false, { sem with waiters := sem.waiters ++ [self] })

/-- The waiter that is passed to its scheduler. -/
def notify : Option (S × F) × FiberSemaphore S F :=
  match sem.waiters with
  | next :: waiters => (some next, { sem with waiters := waiters })
  | [] => (none, { sem with concurrency := sem.concurrency + 1 })

def notifyAll : List (S × F) × FiberSemaphore S F :=
  (sem.waiters, { sem with waiters := [] })

end FiberSemaphore

/-- A call that has left its section, with what it did there. -/
inductive Call (S F : Type)
  | tryWait (granted : Bool)
  | wait (self : S × F) (granted : Bool)
  | notify (next : Option (S × F))
  | notifyAll (waiters : List (S × F))
  deriving DecidableEq, Repr

namespace Call

/-- The wait that the call grants by a permit, its own or that of a waiter. -/
def granted : Call S F → Nat
  | .tryWait granted => granted.toNat
  | .wait _ granted => granted.toNat
  | .notify next => next.isSome.toNat
  | .notifyAll _ => 0

def notifies : Call S F → Nat
  | .notify _ => 1
  | _ => 0

def queued : Call S F → List (S × F)
  | .wait self false => [self]
  | _ => []

def scheduled : Call S F → List (S × F)
  | .notify next => next.toList
  | .notifyAll waiters => waiters
  | _ => []

end Call

structure Run (S F : Type) where
  sem : FiberSemaphore S F
  /-- the first first -/
  calls : List (Call S F)

inductive Action (S F : Type)
  | tryWait
  | wait (self : S × F)
  | notify
  | notifyAll
  deriving DecidableEq, Repr

namespace Run

variable (r : Run S F)

def did (sem : FiberSemaphore S F) (call : Call S F) : Run S F :=
  ⟨sem, r.calls ++ [call]⟩

def step : Action S F → Option (Run S F)
  | .tryWait => some (r.did r.sem.tryWait.2 (.tryWait r.sem.tryWait.1))
  | .wait self => some (r.did (r.sem.wait self).2 (.wait self (r.sem.wait self).1))
  | .notify => some (r.did r.sem.notify.2 (.notify r.sem.notify.1))
  | .notifyAll => some (r.did r.sem.notifyAll.2 (.notifyAll r.sem.notifyAll.1))

/-- The waits and `tryWait`s that were granted by a permit. -/
def granted : Nat :=
  (r.calls.map Call.granted).sum

def notifies : Nat :=
  (r.calls.map Call.notifies).sum

/-- What was put into `m_waiters`, in order. -/
def queued : List (S × F) :=
  r.calls.flatMap Call.queued

/-- What was passed to `schedule`, in order. -/
def scheduled : List (S × F) :=
  r.calls.flatMap Call.scheduled

def Initial (initial_concurrency : UInt64) (r : Run S F) : Prop :=
  r = ⟨.new initial_concurrency, []⟩

/-- The queue is first in, first out, and permits are only stored while nobody
waits; `wraps` counts the overflows of `m_concurrency`. -/
structure Inv (initial_concurrency : UInt64) (r : Run S F) : Prop where
  idle : r.sem.waiters ≠ [] → r.sem.concurrency = 0
  count : ∃ wraps, r.granted + r.sem.concurrency.toNat + 2 ^ 64 * wraps =
    initial_concurrency.toNat + r.notifies
  order : r.queued = r.scheduled ++ r.sem.waiters

/-- What a call schedules is what it takes off the front of the queue, and only
`notify` and `notifyAll` take anything. -/
def Releases (r : Run S F) (action : Action S F) (next : Run S F) : Prop :=
  ∃ joined released,
    next.queued = r.queued ++ joined ∧
    next.scheduled = r.scheduled ++ released ∧
    r.sem.waiters ++ joined = released ++ next.sem.waiters ∧
    (released ≠ [] → action = .notify ∨ action = .notifyAll)

variable {r} {next : Run S F} {initial : UInt64}

@[simp] theorem granted_did (sem : FiberSemaphore S F) (call : Call S F) :
    (r.did sem call).granted = r.granted + call.granted := by
  simp [granted, did]

@[simp] theorem notifies_did (sem : FiberSemaphore S F) (call : Call S F) :
    (r.did sem call).notifies = r.notifies + call.notifies := by
  simp [notifies, did]

@[simp] theorem queued_did (sem : FiberSemaphore S F) (call : Call S F) :
    (r.did sem call).queued = r.queued ++ call.queued := by
  simp [queued, did]

@[simp] theorem scheduled_did (sem : FiberSemaphore S F) (call : Call S F) :
    (r.did sem call).scheduled = r.scheduled ++ call.scheduled := by
  simp [scheduled, did]

theorem toNat_lower {count : UInt64} (positive : 0 < count) :
    1 + (count - 1).toNat = count.toNat := by
  have above : (1 : UInt64).toNat ≤ count.toNat :=
    UInt64.lt_iff_toNat_lt.mp positive
  rw [UInt64.toNat_sub_of_le _ _ (UInt64.le_iff_toNat_le.mpr above)]
  exact Nat.add_sub_cancel' above

theorem toNat_raise (count : UInt64) :
    ∃ wraps, (count + 1).toNat + 2 ^ 64 * wraps = count.toNat + 1 := by
  refine ⟨(count.toNat + 1) / 2 ^ 64, ?_⟩
  rw [UInt64.toNat_add]
  exact Nat.mod_add_div _ _

theorem releases_step {action : Action S F} (taken : r.step action = some next) :
    Releases r action next := by
  cases action with
  | tryWait =>
      cases taken
      refine ⟨[], [], by simp [Call.queued], by simp [Call.scheduled], ?_,
        fun some => absurd rfl some⟩
      unfold FiberSemaphore.tryWait
      split <;> simp [did]
  | wait self =>
      cases taken
      refine ⟨(Call.wait self (r.sem.wait self).1).queued, [], by simp,
        by simp [Call.scheduled], ?_, fun some => absurd rfl some⟩
      unfold FiberSemaphore.wait
      split <;> simp [did, Call.queued]
  | notify =>
      cases taken
      refine ⟨[], r.sem.notify.1.toList, by simp [Call.queued],
        by simp [Call.scheduled], ?_, fun _ => .inl rfl⟩
      unfold FiberSemaphore.notify
      split <;> simp_all [did]
  | notifyAll =>
      cases taken
      exact ⟨[], r.sem.waiters, by simp [Call.queued],
        by simp [Call.scheduled, FiberSemaphore.notifyAll],
        by simp [did, FiberSemaphore.notifyAll], fun _ => .inr rfl⟩

theorem idle_step {action : Action S F}
    (idle : r.sem.waiters ≠ [] → r.sem.concurrency = 0)
    (taken : r.step action = some next) :
    next.sem.waiters ≠ [] → next.sem.concurrency = 0 := by
  cases action with
  | tryWait =>
      cases taken
      unfold FiberSemaphore.tryWait
      split
      · rename_i positive
        intro waiting
        rw [idle waiting] at positive
        cases positive
      · exact idle
  | wait self =>
      cases taken
      unfold FiberSemaphore.wait
      split
      · rename_i positive
        intro waiting
        rw [idle waiting] at positive
        cases positive
      · rename_i none
        intro _
        exact UInt64.toNat_inj.mp (Nat.eq_zero_of_not_pos fun positive =>
          none (UInt64.lt_iff_toNat_lt.mpr positive))
  | notify =>
      cases taken
      unfold FiberSemaphore.notify
      split
      · rename_i next waiters front
        intro _
        exact idle (by rw [front]; simp)
      · rename_i empty
        intro waiting
        exact absurd empty waiting
  | notifyAll =>
      cases taken
      exact fun waiting => absurd rfl waiting

/-- Grants and stored permits grow by the notifications, overflows apart. -/
theorem count_step {action : Action S F} (taken : r.step action = some next) :
    ∃ wraps, next.granted + next.sem.concurrency.toNat + 2 ^ 64 * wraps +
        r.notifies =
      r.granted + r.sem.concurrency.toNat + next.notifies := by
  cases action with
  | tryWait =>
      cases taken
      rw [granted_did, notifies_did]
      unfold FiberSemaphore.tryWait
      split
      · rename_i positive
        have lower := toNat_lower positive
        refine ⟨0, ?_⟩
        simp only [did, Call.granted, Call.notifies, Bool.toNat_true]
        omega
      · exact ⟨0, rfl⟩
  | wait self =>
      cases taken
      rw [granted_did, notifies_did]
      unfold FiberSemaphore.wait
      split
      · rename_i positive
        have lower := toNat_lower positive
        refine ⟨0, ?_⟩
        simp only [did, Call.granted, Call.notifies, Bool.toNat_true]
        omega
      · exact ⟨0, rfl⟩
  | notify =>
      cases taken
      rw [granted_did, notifies_did]
      unfold FiberSemaphore.notify
      split
      · refine ⟨0, ?_⟩
        simp only [did, Call.granted, Call.notifies, Option.isSome_some,
          Bool.toNat_true]
        omega
      · obtain ⟨wraps, raise⟩ := toNat_raise r.sem.concurrency
        refine ⟨wraps, ?_⟩
        simp only [did, Call.granted, Call.notifies, Option.isSome_none,
          Bool.toNat_false]
        omega
  | notifyAll =>
      cases taken
      rw [granted_did, notifies_did]
      exact ⟨0, rfl⟩

theorem inv_step {action : Action S F} (inv : Inv initial r)
    (taken : r.step action = some next) : Inv initial next where
  idle := idle_step inv.idle taken
  count := by
    obtain ⟨wraps, count⟩ := inv.count
    obtain ⟨more, grown⟩ := count_step taken
    exact ⟨wraps + more, by omega⟩
  order := by
    obtain ⟨joined, released, queued, scheduled, moved, -⟩ := releases_step taken
    rw [queued, scheduled, inv.order, List.append_assoc, moved, List.append_assoc]

theorem inv_run (reached : Reach (Initial initial) (StepOf step) r) :
    Inv initial r := by
  refine @Reach.invariant _ _ _ _ (Inv initial) ?_ ?_ r reached
  · rintro r rfl
    exact ⟨fun waiting => absurd rfl waiting, ⟨0, by simp [granted, notifies,
      FiberSemaphore.new]⟩, rfl⟩
  · exact fun _ _ _ inv taken => inv_step inv taken

/-- Waiters are there only without a permit; grants and stored permits add up to
the initial count and the notifications, modulo the range of `size_t`; waiters
leave in the order they came, each by one `notify` or `notifyAll`. -/
theorem conservation (reached : Reach (Initial initial) (StepOf step) r) :
    (r.sem.waiters ≠ [] → r.sem.concurrency = 0) ∧
    (r.granted + r.sem.concurrency.toNat) % 2 ^ 64 =
      (initial.toNat + r.notifies) % 2 ^ 64 ∧
    (initial.toNat + r.notifies < 2 ^ 64 + r.granted →
      r.granted + r.sem.concurrency.toNat = initial.toNat + r.notifies) ∧
    r.queued = r.scheduled ++ r.sem.waiters ∧
    ∀ action next, r.step action = some next → Releases r action next := by
  have inv := inv_run reached
  obtain ⟨wraps, count⟩ := inv.count
  refine ⟨inv.idle, ?_, ?_, inv.order, fun _ _ => releases_step⟩
  · rw [← count, Nat.add_mul_mod_self_left]
  · intro room
    omega

/-- One stored permit, two fibers that wait. -/
theorem conservation_two :
    ∃ r : Run Unit Nat,
      r.granted + r.sem.concurrency.toNat = 1 + r.notifies ∧
      r.scheduled = [((), 8), ((), 9)] ∧ r.queued = r.scheduled := by
  obtain ⟨r, ran, granted, notifies, waiters, scheduled⟩ : ∃ r : Run Unit Nat,
      exec step ⟨.new 1, []⟩ [.wait ((), 7), .wait ((), 8), .tryWait,
        .wait ((), 9), .notify, .notifyAll, .notify] = some r ∧
      r.granted = 2 ∧ r.notifies = 2 ∧ r.sem.waiters = [] ∧
      r.scheduled = [((), 8), ((), 9)] := ⟨_, rfl, rfl, rfl, rfl, rfl⟩
  obtain ⟨-, -, count, order, -⟩ :=
    conservation (reach_exec (.start _ (rfl : Initial 1 _)) ran)
  refine ⟨r, count ?_, scheduled, ?_⟩
  · rw [granted, notifies]
    decide
  · rw [order, waiters, List.append_nil]

/-- `m_concurrency` overflows. -/
theorem conservation_wraps :
    ∃ r : Run Unit Nat, Reach (Initial 18446744073709551615) (StepOf step) r ∧
      r.granted = 0 ∧ r.notifies = 1 ∧ r.sem.concurrency = 0 ∧
      r.granted + r.sem.concurrency.toNat ≠
        (18446744073709551615 : UInt64).toNat + r.notifies := by
  obtain ⟨r, ran, rest⟩ : ∃ r : Run Unit Nat,
      exec step ⟨.new 18446744073709551615, []⟩ [.notify] = some r ∧
      r.granted = 0 ∧ r.notifies = 1 ∧ r.sem.concurrency = 0 ∧
      r.granted + r.sem.concurrency.toNat ≠
        (18446744073709551615 : UInt64).toNat + r.notifies :=
    ⟨_, rfl, rfl, rfl, by decide, by decide⟩
  exact ⟨r, reach_exec (.start _ rfl) ran, rest⟩

end Run

end Sylar.Sync
