namespace Sylar.Logic

/-! Calls on a mutable object. A call returns a value, throws, or leaves the
defined behaviour of the source language; only the first two have a successor
state. -/

inductive Outcome (σ ε α : Type) where
  | done (value : α) (state : σ)
  | raise (error : ε) (state : σ)
  | fault

namespace Outcome

/-- The state a call leaves behind, when it leaves one. -/
def state? : Outcome σ ε α → Option σ
  | .done _ state => some state
  | .raise _ state => some state
  | .fault => none

end Outcome

def Prog (σ ε α : Type) : Type := σ → Outcome σ ε α

namespace Prog

def pure (value : α) : Prog σ ε α := fun state => .done value state

def bind (first : Prog σ ε α) (next : α → Prog σ ε β) : Prog σ ε β :=
  fun state =>
    match first state with
    | .done value middle => next value middle
    | .raise error middle => .raise error middle
    | .fault => .fault

instance : Monad (Prog σ ε) where
  pure := Prog.pure
  bind := Prog.bind

def raise (error : ε) : Prog σ ε α := fun state => .raise error state

def fault : Prog σ ε α := fun _ => .fault

def get : Prog σ ε σ := fun state => .done state state

def set (state : σ) : Prog σ ε Unit := fun _ => .done () state

/-- Run `handler` on the state an exception of `body` leaves behind. A fault
is not an exception and is not caught. -/
def catchAll (body handler : Prog σ ε α) : Prog σ ε α := fun state =>
  match body state with
  | .done value final => .done value final
  | .raise _ middle => handler middle
  | .fault => .fault

/-- Call a method of another object from a program on `σ`. -/
def on (object : τ) (method : Prog τ ε α) : Prog σ ε (α × τ) := fun state =>
  match method object with
  | .done value final => .done (value, final) state
  | .raise error _ => .raise error state
  | .fault => .fault

@[simp] theorem pure_apply (value : α) (state : σ) :
    (Pure.pure value : Prog σ ε α) state = .done value state := rfl

@[simp] theorem raise_apply (error : ε) (state : σ) :
    (raise error : Prog σ ε α) state = .raise error state := rfl

@[simp] theorem get_apply (state : σ) :
    (get : Prog σ ε σ) state = .done state state := rfl

@[simp] theorem set_apply (before state : σ) :
    (set state : Prog σ ε Unit) before = .done () state := rfl

theorem bind_apply (first : Prog σ ε α) (next : α → Prog σ ε β) (state : σ) :
    (first >>= next) state =
      match first state with
      | .done value middle => next value middle
      | .raise error middle => .raise error middle
      | .fault => .fault := rfl

theorem bind_done {first : Prog σ ε α} {next : α → Prog σ ε β}
    (returned : first state = .done value middle) :
    (first >>= next) state = next value middle := by
  rw [bind_apply, returned]

theorem bind_fault {first : Prog σ ε α} {next : α → Prog σ ε β}
    (faulted : first state = .fault) :
    (first >>= next) state = .fault := by
  rw [bind_apply, faulted]

/-- A sequence that returns, taken apart. -/
theorem of_bind_done {first : Prog σ ε α} {next : α → Prog σ ε β}
    (returned : (first >>= next) state = .done result final) :
    ∃ value middle, first state = .done value middle ∧
      next value middle = .done result final := by
  rw [bind_apply] at returned
  cases ran : first state with
  | done value middle =>
      rw [ran] at returned
      exact ⟨value, middle, rfl, returned⟩
  | raise error middle =>
      rw [ran] at returned
      cases returned
  | fault =>
      rw [ran] at returned
      cases returned

theorem catchAll_done {body handler : Prog σ ε α}
    (returned : body state = .done value final) :
    catchAll body handler state = .done value final := by
  simp only [catchAll, returned]

theorem catchAll_fault {body handler : Prog σ ε α}
    (faulted : body state = .fault) :
    catchAll body handler state = .fault := by
  simp only [catchAll, faulted]

theorem catchAll_step {body handler tail : Prog σ ε α}
    (reached : body state = tail middle) :
    catchAll body handler state = catchAll tail handler middle := by
  simp only [catchAll, reached]

theorem on_done {method : Prog τ ε α} {object final : τ} (state : σ)
    (returned : method object = .done value final) :
    on object method state = .done (value, final) state := by
  simp only [on, returned]

theorem on_fault {method : Prog τ ε α} {object : τ} (state : σ)
    (faulted : method object = .fault) :
    on object method state = .fault := by
  simp only [on, faulted]

/-! Invariants of an object: what every call preserves, whether it returns or
throws. -/

def Keeps (invariant : σ → Prop) (program : Prog σ ε α) : Prop :=
  ∀ ⦃state⦄, invariant state →
    ∀ ⦃after⦄, (program state).state? = some after → invariant after

theorem keeps_pure (invariant : σ → Prop) (value : α) :
    Keeps invariant (Pure.pure value : Prog σ ε α) := by
  intro state holds after left
  cases left
  exact holds

theorem keeps_get (invariant : σ → Prop) :
    Keeps invariant (get : Prog σ ε σ) := by
  intro state holds after left
  cases left
  exact holds

theorem keeps_bind {invariant : σ → Prop} {first : Prog σ ε α}
    {next : α → Prog σ ε β} (firstKeeps : Keeps invariant first)
    (nextKeeps : ∀ value, Keeps invariant (next value)) :
    Keeps invariant (first >>= next) := by
  intro state holds after left
  rw [bind_apply] at left
  cases result : first state with
  | done value middle =>
      rw [result] at left
      exact nextKeeps value (firstKeeps holds (by rw [result]; rfl)) left
  | raise error middle =>
      rw [result] at left
      exact firstKeeps holds (by rw [result]; exact left)
  | fault =>
      rw [result] at left
      cases left

theorem keeps_ite {invariant : σ → Prop} {condition : Prop}
    [Decidable condition] {yes no : Prog σ ε α}
    (yesKeeps : Keeps invariant yes) (noKeeps : Keeps invariant no) :
    Keeps invariant (if condition then yes else no) := by
  split
  · exact yesKeeps
  · exact noKeeps

end Prog

end Sylar.Logic
