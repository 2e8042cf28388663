import Mathlib.Logic.Function.Basic

namespace Sylar.Logic

/-! Resources under names that are given out again. Each has one owner, who may hand it
on or release it; `κ` tells the resources of one name apart. -/

variable {ω δ κ : Type}

structure Owned (holds : ω → Option (δ × κ)) (live : δ → Option κ) : Prop where
  live_of_held : ∀ owner name key, holds owner = some (name, key) → live name = some key
  unique : ∀ owner other name key, holds owner = some (name, key) →
    holds other = some (name, key) → owner = other
  held_of_live : ∀ name key, live name = some key → ∃ owner, holds owner = some (name, key)

namespace Owned

variable {holds : ω → Option (δ × κ)} {live : δ → Option κ} {owner other : ω} {name : δ}
  {key : κ}

theorem empty : Owned (fun _ : ω => (none : Option (δ × κ))) fun _ => none := by
  constructor
  · intro owner name key held
    cases held
  · intro owner other name key held
    cases held
  · intro name key alive
    cases alive

theorem existsUnique (owned : Owned holds live) (alive : live name = some key) :
    ∃! owner, holds owner = some (name, key) := by
  obtain ⟨owner, held⟩ := owned.held_of_live name key alive
  exact ⟨owner, held, fun other also => owned.unique other owner name key also held⟩

/-- Two owners have different names, not only different resources. -/
theorem apart (owned : Owned holds live) {also : κ} (held : holds owner = some (name, key))
    (too : holds other = some (name, also)) : owner = other := by
  have same : key = also := Option.some.inj
    ((owned.live_of_held owner name key held).symm.trans
      (owned.live_of_held other name also too))
  exact owned.unique owner other name key held (same ▸ too)

theorem dead (owned : Owned holds live) (nobody : ∀ owner, holds owner = none) :
    live name = none := by
  cases alive : live name with
  | none => rfl
  | some key =>
      obtain ⟨owner, held⟩ := owned.held_of_live name key alive
      rw [nobody owner] at held
      cases held

variable [DecidableEq ω] [DecidableEq δ]

theorem acquire (owned : Owned holds live) (free : holds owner = none)
    (closed : live name = none) (key : κ) :
    Owned (Function.update holds owner (some (name, key)))
      (Function.update live name (some key)) := by
  have others {holder : ω} {held : δ} {number : κ} (before : holds holder =
      some (held, number)) : holder ≠ owner ∧ held ≠ name := by
    constructor
    · rintro rfl
      rw [free] at before
      cases before
    · rintro rfl
      have alive := owned.live_of_held holder held number before
      rw [closed] at alive
      cases alive
  constructor
  · intro holder held number now
    rw [Function.update_apply] at now
    split at now
    · cases now
      exact Function.update_self ..
    · rw [Function.update_of_ne (others now).2]
      exact owned.live_of_held holder held number now
  · intro holder more held number now also
    rw [Function.update_apply] at now also
    split at now
    · rename_i first
      split at also
      · rename_i second
        exact first.trans second.symm
      · cases now
        exact absurd rfl (others also).2
    · split at also
      · cases also
        exact absurd rfl (others now).2
      · exact owned.unique holder more held number now also
  · intro held number alive
    rw [Function.update_apply] at alive
    split at alive
    · rename_i same
      cases alive
      exact ⟨owner, same ▸ Function.update_self ..⟩
    · obtain ⟨holder, before⟩ := owned.held_of_live held number alive
      exact ⟨holder, (Function.update_of_ne (others before).1 ..).trans before⟩

theorem release (owned : Owned holds live) (held : holds owner = some (name, key)) :
    Owned (Function.update holds owner none) (Function.update live name none) := by
  have others {holder : ω} {own : δ} {number : κ} (now : Function.update holds owner none
      holder = some (own, number)) : holds holder = some (own, number) ∧ own ≠ name := by
    rw [Function.update_apply] at now
    split at now
    · cases now
    · rename_i different
      refine ⟨now, ?_⟩
      rintro rfl
      exact different (owned.apart now held)
  constructor
  · intro holder own number now
    rw [Function.update_of_ne (others now).2]
    exact owned.live_of_held holder own number (others now).1
  · intro holder more own number now also
    exact owned.unique holder more own number (others now).1 (others also).1
  · intro own number alive
    rw [Function.update_apply] at alive
    split at alive
    · cases alive
    · rename_i different
      obtain ⟨holder, before⟩ := owned.held_of_live own number alive
      refine ⟨holder, (Function.update_of_ne ?_ ..).trans before⟩
      rintro rfl
      rw [held] at before
      cases before
      exact different rfl

theorem pass (owned : Owned holds live) (held : holds owner = some (name, key))
    (free : holds other = none) :
    Owned (Function.update (Function.update holds owner none) other (some (name, key)))
      live := by
  have empty : Function.update holds owner none other = none := by
    rw [Function.update_apply]
    split
    · rfl
    · exact free
  have again : Function.update (Function.update live name none) name (some key) = live := by
    rw [Function.update_idem, ← owned.live_of_held owner name key held,
      Function.update_eq_self]
  have handed := (owned.release held).acquire empty (Function.update_self ..) key
  rwa [again] at handed

end Owned

end Sylar.Logic
