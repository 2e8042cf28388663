import Mathlib.Logic.Function.Basic

namespace Sylar.Logic

/-! One-shot contexts: each stands for something suspended, and is to be jumped
to once. A jump suspends its caller into a new context. -/

structure Pool (κ : Type) where
  /-- the number of the next context -/
  next : Nat
  jumps : Nat → Nat
  /-- what is suspended in a context -/
  holds : Nat → κ

namespace Pool

variable {κ : Type} {pool : Pool κ} {context target : Nat} {one other : κ}

def make (pool : Pool κ) (one : κ) : Pool κ :=
  { pool with
    next := pool.next + 1
    holds := Function.update pool.holds pool.next one }

def jump (pool : Pool κ) (target : Nat) (caller : κ) : Pool κ :=
  { pool.make caller with
    jumps := Function.update pool.jumps target (pool.jumps target + 1) }

/-- The context is suspended in this, and was not jumped to. -/
structure Live (pool : Pool κ) (context : Nat) (one : κ) : Prop where
  made : context < pool.next
  unused : pool.jumps context = 0
  holds : pool.holds context = one

structure Sound (pool : Pool κ) : Prop where
  fresh : ∀ context, pool.next ≤ context → pool.jumps context = 0
  once : ∀ context, pool.jumps context ≤ 1

/-- Two things are not suspended in one context. -/
theorem Live.ne (live : pool.Live context one) (also : pool.Live target other)
    (different : one ≠ other) : context ≠ target := by
  rintro rfl
  exact different (live.holds.symm.trans also.holds)

theorem Live.make (live : pool.Live context one) (other : κ) :
    (pool.make other).Live context one where
  made := Nat.lt_succ_of_lt live.made
  unused := live.unused
  holds := (Function.update_of_ne (Nat.ne_of_lt live.made) _ _).trans live.holds

theorem Sound.made (sound : pool.Sound) (one : κ) :
    (pool.make one).Live pool.next one where
  made := Nat.lt_succ_self _
  unused := sound.fresh _ (Nat.le_refl _)
  holds := Function.update_self _ _ _

theorem Sound.make (sound : pool.Sound) (one : κ) : (pool.make one).Sound where
  fresh := fun context later => sound.fresh context (Nat.le_of_succ_le later)
  once := sound.once

theorem Live.jump (live : pool.Live context one) (toward : pool.Live target other)
    (different : one ≠ other) (caller : κ) :
    (pool.jump target caller).Live context one where
  made := Nat.lt_succ_of_lt live.made
  unused :=
    (Function.update_of_ne (live.ne toward different) _ _).trans live.unused
  holds := (live.make caller).holds

theorem jumps_le_jump (pool : Pool κ) (target : Nat) (caller : κ)
    (context : Nat) :
    pool.jumps context ≤ (pool.jump target caller).jumps context := by
  simp only [jump, Function.update_apply]
  split
  · rename_i same
    rw [same]
    exact Nat.le_succ _
  · exact Nat.le_refl _

theorem jump_jumps (pool : Pool κ) (target : Nat) (caller : κ) :
    0 < (pool.jump target caller).jumps target := by
  simp [jump]

theorem Sound.suspended (sound : pool.Sound) (toward : pool.Live target other)
    (caller : κ) : (pool.jump target caller).Live pool.next caller where
  made := Nat.lt_succ_self _
  unused := (Function.update_of_ne (Nat.ne_of_gt toward.made) _ _).trans
    (sound.made caller).unused
  holds := (sound.made caller).holds

theorem Sound.jump (sound : pool.Sound) (toward : pool.Live target other)
    (caller : κ) : (pool.jump target caller).Sound := by
  have later : ∀ context, context ≠ target →
      (pool.jump target caller).jumps context = pool.jumps context :=
    fun context different => Function.update_of_ne different _ _
  constructor
  · intro context made
    have beyond : pool.next ≤ context := Nat.le_of_succ_le made
    rw [later context (Nat.ne_of_gt (Nat.lt_of_lt_of_le toward.made beyond)),
      sound.fresh context beyond]
  · intro context
    rcases eq_or_ne context target with rfl | different
    · have after : (pool.jump context caller).jumps context = 1 :=
        (Function.update_self _ _ _).trans (congrArg Nat.succ toward.unused)
      exact Nat.le_of_eq after
    · rw [later context different]
      exact sound.once context

end Pool

end Sylar.Logic
