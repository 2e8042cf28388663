import Mathlib.Data.List.Lex
import Mathlib.Order.Lattice

namespace Sylar.Data

/-! The comparison of two sequences up to a length, and the order in which a
sequence comes before those it starts. -/

variable {α : Type} [LinearOrder α]

/-- The sign of the first difference among the first elements. -/
def memcmp : List α → List α → Nat → Ordering
  | first :: left, other :: right, num + 1 =>
      if first < other then .lt
      else if other < first then .gt
      else memcmp left right num
  | _, _, _ => .eq

/-- The comparison up to the shorter length. -/
def compareShorter (left right : List α) : Ordering :=
  memcmp left right (min left.length right.length)

theorem memcmp_take (left right : List α) {first second num : Nat}
    (inside : num ≤ first) (within : num ≤ second) :
    memcmp (left.take first) (right.take second) num = memcmp left right num := by
  induction num generalizing left right first second with
  | zero => simp [memcmp]
  | succ num ih =>
      obtain ⟨first, rfl⟩ := Nat.exists_eq_succ_of_ne_zero (by omega : first ≠ 0)
      obtain ⟨second, rfl⟩ := Nat.exists_eq_succ_of_ne_zero (by omega : second ≠ 0)
      cases left with
      | nil => rfl
      | cons head left =>
          cases right with
          | nil => rfl
          | cons other right =>
              simp only [List.take_succ_cons, memcmp]
              rw [ih left right (by omega) (by omega)]

theorem compareShorter_cons (first other : α) (left right : List α) :
    compareShorter (first :: left) (other :: right) =
      if first < other then .lt
      else if other < first then .gt
      else compareShorter left right := by
  rw [compareShorter, List.length_cons, List.length_cons,
    Nat.add_min_add_right, memcmp]
  rfl

theorem compareShorter_swap (left right : List α) :
    compareShorter right left = (compareShorter left right).swap := by
  induction left generalizing right with
  | nil => cases right <;> rfl
  | cons first left ih =>
      cases right with
      | nil => rfl
      | cons other right =>
          rw [compareShorter_cons, compareShorter_cons, ih]
          rcases lt_trichotomy first other with less | rfl | more
          · simp [less, less.not_gt]
          · simp
          · simp [more, more.not_gt]

theorem compareShorter_eq_iff (left right : List α) :
    compareShorter left right = .eq ↔ left <+: right ∨ right <+: left := by
  induction left generalizing right with
  | nil =>
      cases right <;> simp [compareShorter, memcmp]
  | cons first left ih =>
      cases right with
      | nil => simp [compareShorter, memcmp]
      | cons other right =>
          rw [compareShorter_cons]
          rcases lt_trichotomy first other with less | rfl | more
          · simp [less, less.ne, less.ne']
          · simp [ih]
          · simp [more, more.not_gt, more.ne, more.ne']

/-- What comes before is less in the first difference, or a shorter start. -/
theorem lt_iff_compareShorter (left right : List α) :
    left < right ↔ compareShorter left right = .lt ∨
      compareShorter left right = .eq ∧ left.length < right.length := by
  induction left generalizing right with
  | nil => cases right <;> simp [compareShorter, memcmp]
  | cons first left ih =>
      cases right with
      | nil => simp [compareShorter, memcmp]
      | cons other right =>
          rw [compareShorter_cons, List.cons_lt_cons_iff]
          rcases lt_trichotomy first other with less | rfl | more
          · simp [less]
          · simp [ih]
          · simp [more.not_gt, more, more.ne']

end Sylar.Data
