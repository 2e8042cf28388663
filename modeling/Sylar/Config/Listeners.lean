import Mathlib.Data.List.Nodup
import Mathlib.Logic.Function.Basic
import Sylar.Logic.Reach

namespace Sylar.ConfigVar

open Logic

/-! `setValue` and `fromString` section by section: the listeners run under the
read lock and the value is written under the write lock, with sections of other
calls in between. Each section is one step, although two calls could run their
listeners at once under the read lock. What a listener does, throwing included, is
an input. `L` are the ids that `addListener` gives out. -/

/-- `fromString` catches `std::exception` only. -/
inductive Thrown
  | std
  | other
  deriving DecidableEq, Repr

inductive Call (T : Type)
  | setValue (v : T)
  /-- with the outcome of `FromStr` -/
  | fromString (parsed : Except Thrown T)

inductive Result
  | void
  | bool (b : Bool)
  | threw (thrown : Thrown)
  deriving DecidableEq, Repr

namespace Call

def v : Call T → Except Thrown T
  | setValue v => .ok v
  | fromString parsed => parsed

def result : Call T → Result
  | setValue _ => .void
  | fromString _ => .bool true

/-- An exception leaves `setValue`, and `fromString` unless it is caught. -/
def caught : Call T → Thrown → Result
  | setValue _, thrown => .threw thrown
  | fromString _, .std => .bool false
  | fromString _, .other => .threw .other

end Call

inductive Stage (T : Type)
  | called
  /-- the listeners have run, the value is not written -/
  | between (v : T)
  | returned (result : Result)
  deriving DecidableEq, Repr

structure State (K L T : Type) where
  call : K → Call T
  stage : K → Stage T
  value : T
  cbs : List L
  /-- the last `new_value` of a listener since it was added -/
  seen : L → Option T
  /-- the calls that are to write, in the order of their read locks -/
  waiting : List K

inductive Action (K L : Type)
  /-- The section under the read lock; `fails` is the listener that throws. -/
  | notify (k : K) (fails : Option (L × Thrown))
  | write (k : K)
  | addListener (id : L)
  | delListener (id : L)
  | clearListener

variable {K L T : Type} [DecidableEq K] [DecidableEq L] [BEq T]

namespace State

def move (s : State K L T) (k : K) (stage : Stage T) : State K L T :=
  { s with stage := Function.update s.stage k stage }

def tell (s : State K L T) (called : List L) (v : T) : State K L T :=
  { s with seen := fun id => if id ∈ called then some v else s.seen id }

def step (s : State K L T) : Action K L → Option (State K L T)
  | .notify k fails =>
      match s.stage k, (s.call k).v with
      | .called, .error thrown =>
          some (s.move k (.returned ((s.call k).caught thrown)))
      | .called, .ok v =>
          if v == s.value then
            some (s.move k (.returned (s.call k).result))
          else
            match fails with
            | none =>
                some { (s.tell s.cbs v).move k (.between v) with
                  waiting := s.waiting ++ [k] }
            | some (id, thrown) =>
                if id ∈ s.cbs then
                  let called := s.cbs.takeWhile (· ≠ id) ++ [id]
                  some ((s.tell called v).move k
                    (.returned ((s.call k).caught thrown)))
                else none
      | _, _ => none
  | .write k =>
      match s.stage k with
      | .between v =>
          some { s.move k (.returned (s.call k).result) with
            value := v
            waiting := s.waiting.erase k }
      | _ => none
  | .addListener id =>
      if id ∈ s.cbs then none
      else some { s with
        cbs := s.cbs ++ [id]
        seen := Function.update s.seen id none }
  | .delListener id => some { s with cbs := s.cbs.erase id }
  | .clearListener => some { s with cbs := [] }

/-- No call has begun. -/
structure Initial (s : State K L T) : Prop where
  stage : ∀ k, s.stage k = .called
  cbs : s.cbs = []
  waiting : s.waiting = []

/-- No `setValue` is in progress. -/
def Quiet (s : State K L T) : Prop :=
  ∀ k v, s.stage k ≠ .between v

/-- Listeners do not throw, and as soon as a listener has been called the calls
write in the order in which they ran the listeners. -/
def InOrder (s : State K L T) : Action K L → Prop
  | .notify _ fails => fails = none
  | .write k => (∃ id ∈ s.cbs, s.seen id ≠ none) → s.waiting.head? = some k
  | _ => True

structure Inv (s : State K L T) : Prop where
  between : ∀ k ∈ s.waiting, ∃ v, s.stage k = .between v
  nodup : s.waiting.Nodup
  idle : s.waiting = [] → ∀ id ∈ s.cbs, ∀ v, s.seen id = some v → v = s.value
  /-- The listeners have seen what the last call in line is to write. -/
  last : ∀ k, s.waiting.getLast? = some k →
    ∀ id ∈ s.cbs, ∀ v, s.seen id = some v → s.stage k = .between v

variable {s next : State K L T} {k : K} {v : T}

omit [DecidableEq L] [BEq T] in
theorem move_stage (stage : Stage T) (other : K) :
    (s.move k stage).stage other = if other = k then stage else s.stage other :=
  Function.update_apply ..

omit [DecidableEq L] [BEq T] in
/-- A call that does not wait moves on. -/
theorem Inv.move (inv : s.Inv) (absent : k ∉ s.waiting) (stage : Stage T) :
    (s.move k stage).Inv where
  between := by
    intro other waits
    have different : other ≠ k := fun same => absent (same ▸ waits)
    obtain ⟨v, between⟩ := inv.between other waits
    exact ⟨v, by rw [move_stage, if_neg different, between]⟩
  nodup := inv.nodup
  idle := inv.idle
  last := by
    intro other last id present v seen
    have different : other ≠ k := by
      rintro rfl
      exact absent (List.mem_of_getLast? last)
    rw [move_stage, if_neg different]
    exact inv.last other last id present v seen

omit [DecidableEq K] [DecidableEq L] [BEq T] in
theorem Inv.absent (inv : s.Inv) (called : s.stage k = .called) :
    k ∉ s.waiting := by
  intro waits
  obtain ⟨v, between⟩ := inv.between k waits
  rw [called] at between
  cases between

omit [BEq T] in
theorem Inv.notify (inv : s.Inv) (called : s.stage k = .called) :
    ({ (s.tell s.cbs v).move k (.between v) with
      waiting := s.waiting ++ [k] } : State K L T).Inv where
  between := by
    intro other waits
    change ∃ v', ((s.tell s.cbs v).move k _).stage other = .between v'
    rw [move_stage]
    split
    · exact ⟨v, rfl⟩
    · rename_i different
      rcases List.mem_append.mp waits with waits | here
      · exact inv.between other waits
      · exact absurd (List.mem_singleton.mp here) different
  nodup := by
    refine List.nodup_append.mpr ⟨inv.nodup, List.nodup_singleton k, ?_⟩
    rintro other waits _ here rfl
    rw [List.mem_singleton.mp here] at waits
    exact inv.absent called waits
  idle := fun none => absurd none (by simp)
  last := by
    intro other last id present v' seen
    have same : other = k := by simpa using last.symm
    subst same
    have shown : (if id ∈ s.cbs then some v else s.seen id) = some v' := seen
    rw [if_pos (show id ∈ s.cbs from present)] at shown
    cases shown
    exact (move_stage _ _).trans (if_pos rfl)

omit [DecidableEq L] [BEq T] in
/-- With a listener called, the write of the first in line leaves the last one
in line; the one that is both writes what the listeners have seen. -/
theorem Inv.write (inv : s.Inv) (between : s.stage k = .between v)
    (first : (∃ id ∈ s.cbs, s.seen id ≠ none) → s.waiting.head? = some k)
    (result : Result) :
    ({ s.move k (.returned result) with
      value := v
      waiting := s.waiting.erase k } : State K L T).Inv where
  between := by
    intro other waits
    obtain ⟨different, waits⟩ := inv.nodup.mem_erase_iff.mp waits
    obtain ⟨v', between⟩ := inv.between other waits
    exact ⟨v', (move_stage _ _).trans ((if_neg different).trans between)⟩
  nodup := inv.nodup.erase k
  idle := by
    intro none id present v' seen
    obtain ⟨rest, line⟩ := List.head?_eq_some_iff.mp
      (first ⟨id, present, by rw [show s.seen id = some v' from seen]; simp⟩)
    have alone : s.waiting = [k] := by
      have erased : (s.waiting.erase k) = [] := none
      rw [line, List.erase_cons_head] at erased
      rw [line, erased]
    have last := inv.last k (by rw [alone]; rfl) id present v' seen
    rw [between] at last
    cases last
    rfl
  last := by
    intro other last id present v' seen
    obtain ⟨rest, line⟩ := List.head?_eq_some_iff.mp
      (first ⟨id, present, by rw [show s.seen id = some v' from seen]; simp⟩)
    have erased : (s.waiting.erase k).getLast? = some other := last
    rw [line, List.erase_cons_head] at erased
    have waits := List.mem_of_getLast? erased
    have different : other ≠ k := by
      rintro rfl
      have nodup := inv.nodup
      rw [line] at nodup
      exact (List.nodup_cons.mp nodup).1 waits
    have before : s.waiting.getLast? = some other := by
      rw [line, List.getLast?_cons, erased]
      rfl
    exact (move_stage _ _).trans ((if_neg different).trans
      (inv.last other before id present v' seen))

omit [DecidableEq K] [DecidableEq L] [BEq T] in
/-- Listeners that go leave the rest as they are, and a new one has seen
nothing. -/
theorem Inv.listeners (inv : s.Inv) {cbs : List L} {seen : L → Option T}
    (kept : ∀ id ∈ cbs, ∀ v, seen id = some v →
      id ∈ s.cbs ∧ s.seen id = some v) :
    ({ s with cbs := cbs, seen := seen } : State K L T).Inv where
  between := inv.between
  nodup := inv.nodup
  idle := by
    intro none id present v called
    obtain ⟨before, also⟩ := kept id present v called
    exact inv.idle none id before v also
  last := by
    intro k last id present v called
    obtain ⟨before, also⟩ := kept id present v called
    exact inv.last k last id before v also

omit [DecidableEq K] [DecidableEq L] [BEq T] in
theorem Initial.inv (initial : s.Initial) : s.Inv where
  between := by simp [initial.waiting]
  nodup := by simp [initial.waiting]
  idle := by simp [initial.cbs]
  last := by simp [initial.waiting]

theorem inv_step {action : Action K L} (inv : s.Inv) (ordered : s.InOrder action)
    (taken : s.step action = some next) : next.Inv := by
  cases action with
  | notify k fails =>
      cases (ordered : fails = none)
      simp only [step] at taken
      split at taken
      · rename_i called _
        cases taken
        exact inv.move (inv.absent called) _
      · rename_i called _
        split at taken
        · cases taken
          exact inv.move (inv.absent called) _
        · cases taken
          exact inv.notify called
      · cases taken
  | write k =>
      simp only [step] at taken
      split at taken
      · rename_i v between
        cases taken
        exact inv.write between ordered _
      · cases taken
  | addListener id =>
      simp only [step] at taken
      split at taken
      · cases taken
      · cases taken
        refine inv.listeners fun other present v seen => ?_
        have different : other ≠ id := by
          rintro rfl
          rw [Function.update_self] at seen
          cases seen
        rw [Function.update_of_ne different] at seen
        refine ⟨?_, seen⟩
        rcases List.mem_append.mp present with before | here
        · exact before
        · exact absurd (List.mem_singleton.mp here) different
  | delListener id =>
      cases taken
      exact inv.listeners fun other present v seen =>
        ⟨List.mem_of_mem_erase present, seen⟩
  | clearListener =>
      cases taken
      exact inv.listeners fun other present => absurd present List.not_mem_nil

theorem inv_run (reached : Reach Initial (StepWhen step InOrder) s) : s.Inv :=
  @Reach.invariant _ _ _ _ Inv (fun _ initial => initial.inv)
    (fun _ _ _ inv taken => inv_step inv taken.1 taken.2) s reached

/-- What `fromString` does when it returns false: `FromStr` threw. -/
theorem returned_false {action : Action K L} (ordered : s.InOrder action)
    (taken : s.step action = some next)
    (before : s.stage k ≠ .returned (.bool false))
    (after : next.stage k = .returned (.bool false)) :
    next.value = s.value ∧ next.seen = s.seen := by
  have moved : ∀ {other : K} {stage : Stage T},
      (s.move other stage).stage k = .returned (.bool false) →
      stage = .returned (.bool false) := by
    intro other stage moved
    rw [move_stage] at moved
    split at moved
    · exact moved
    · exact absurd moved before
  cases action with
  | notify other fails =>
      cases (ordered : fails = none)
      simp only [step] at taken
      split at taken
      · cases taken
        exact ⟨rfl, rfl⟩
      · split at taken
        · cases taken
          exact ⟨rfl, rfl⟩
        · cases taken
          cases moved after
      · cases taken
  | write other =>
      simp only [step] at taken
      split at taken
      · cases taken
        have result := moved after
        cases call : s.call other <;> rw [call] at result <;> cases result
      · cases taken
  | addListener id =>
      simp only [step] at taken
      split at taken
      · cases taken
      · cases taken
        exact absurd after before
  | delListener id =>
      cases taken
      exact absurd after before
  | clearListener =>
      cases taken
      exact absurd after before

/-- A listener that has been called has last seen the value, whenever no
`setValue` is in progress; and a `fromString` that returns false changes
nothing. -/
theorem listeners_agree (reached : Reach Initial (StepWhen step InOrder) s) :
    (s.Quiet → ∀ id ∈ s.cbs, ∀ v, s.seen id = some v → v = s.value) ∧
    ∀ k action next, s.InOrder action → s.step action = some next →
      s.stage k ≠ .returned (.bool false) →
      next.stage k = .returned (.bool false) →
      next.value = s.value ∧ next.seen = s.seen := by
  have inv := inv_run reached
  refine ⟨?_, ?_⟩
  · intro quiet
    refine inv.idle (List.eq_nil_iff_forall_not_mem.mpr fun k waits => ?_)
    obtain ⟨v, between⟩ := inv.between k waits
    exact quiet k v between
  · intro k action next ordered taken
    exact returned_false ordered taken

end State

open State

/-- `tcp.connect.timeout`, read from two configuration files. -/
def timeout : State Bool Nat Int where
  call k := .fromString (.ok (if k then 3000 else 2000))
  stage _ := .called
  value := 5000
  cbs := []
  seen _ := none
  waiting := []

theorem timeout_initial : Initial timeout :=
  ⟨fun _ => rfl, rfl, rfl⟩

instance (s : State K L T) : (action : Action K L) → Decidable (s.InOrder action)
  | .notify _ fails =>
      match fails with
      | none => .isTrue rfl
      | some _ => .isFalse fun none => Option.some_ne_none _ none
  | .write k => inferInstanceAs
      (Decidable ((∃ id ∈ s.cbs, s.seen id ≠ none) → s.waiting.head? = some k))
  | .addListener _ => inferInstanceAs (Decidable True)
  | .delListener _ => inferInstanceAs (Decidable True)
  | .clearListener => inferInstanceAs (Decidable True)

/-- The read locks overlap, the writes come in the same order. -/
theorem listeners_agree_timeout :
    ∃ s : State Bool Nat Int,
      s.stage false = .returned (.bool true) ∧
      s.stage true = .returned (.bool true) ∧
      s.seen 1 = some 3000 ∧ s.value = 3000 := by
  obtain ⟨s, ran, first, second, seen, cbs⟩ : ∃ s,
      exec (guarded step InOrder) timeout
        [.addListener 1, .notify false none, .notify true none, .write false,
          .write true] = some s ∧
      s.stage false = .returned (.bool true) ∧
      s.stage true = .returned (.bool true) ∧
      s.seen 1 = some 3000 ∧ s.cbs = [1] := ⟨_, rfl, rfl, rfl, rfl, rfl⟩
  have agree := (listeners_agree
    (reach_guarded (.start _ timeout_initial) ran)).1
  refine ⟨s, first, second, seen, (agree ?_ 1 (by simp [cbs]) 3000 seen).symm⟩
  intro k v
  cases k with
  | false => simp [first]
  | true => simp [second]

/-- The second of two listeners throws: `fromString` returns false, and the first
keeps the refused value. Or two calls write in the other order. -/
theorem listeners_disagree :
    (∃ s : State Bool Nat Int,
      Reach Initial (StepOf step) s ∧
      s.stage false = .returned (.bool false) ∧ s.stage true = .called ∧
      s.cbs = [1, 2] ∧ s.seen 1 = some 2000 ∧ s.value = 5000) ∧
    ∃ s : State Bool Nat Int,
      Reach Initial (StepOf step) s ∧
      s.stage false = .returned (.bool true) ∧
      s.stage true = .returned (.bool true) ∧
      s.cbs = [1] ∧ s.seen 1 = some 3000 ∧ s.value = 2000 := by
  refine ⟨?_, ?_⟩
  · obtain ⟨s, ran, rest⟩ : ∃ s,
        exec step timeout
          [.addListener 1, .addListener 2,
            .notify false (some (2, .std))] = some s ∧
        s.stage false = .returned (.bool false) ∧ s.stage true = .called ∧
        s.cbs = [1, 2] ∧ s.seen 1 = some 2000 ∧ s.value = 5000 :=
      ⟨_, rfl, rfl, rfl, rfl, rfl, rfl⟩
    exact ⟨s, reach_exec (.start _ timeout_initial) ran, rest⟩
  · obtain ⟨s, ran, rest⟩ : ∃ s,
        exec step timeout
          [.addListener 1, .notify false none, .notify true none, .write true,
            .write false] = some s ∧
        s.stage false = .returned (.bool true) ∧
        s.stage true = .returned (.bool true) ∧
        s.cbs = [1] ∧ s.seen 1 = some 3000 ∧ s.value = 2000 :=
      ⟨_, rfl, rfl, rfl, rfl, rfl, rfl⟩
    exact ⟨s, reach_exec (.start _ timeout_initial) ran, rest⟩

end Sylar.ConfigVar
