import Mathlib.Algebra.BigOperators.Group.Finset.Basic
import Mathlib.Algebra.BigOperators.Group.Finset.Piecewise

namespace Sylar.Logic

/-! What a number of parties add up to, when one of them moves. -/

theorem total_of_ne [DecidableEq ι] {members : Finset ι} {before after : ι → Nat}
    {one : ι} (member : one ∈ members)
    (others : ∀ other ∈ members, other ≠ one → after other = before other) :
    (∑ other ∈ members, after other) + before one =
      (∑ other ∈ members, before other) + after one := by
  rw [← Finset.add_sum_erase members after member,
    ← Finset.add_sum_erase members before member]
  have rest : ∑ other ∈ members.erase one, after other =
      ∑ other ∈ members.erase one, before other := by
    apply Finset.sum_congr rfl
    intro other inside
    exact others other (Finset.mem_of_mem_erase inside)
      (Finset.ne_of_mem_erase inside)
  omega

/-- The number of parties that are at some place. -/
def tally [Fintype ι] (there : ι → Bool) : Nat :=
  (Finset.univ.filter fun one => there one = true).card

theorem tally_eq_sum [Fintype ι] (there : ι → Bool) :
    tally there = ∑ one, (there one).toNat := by
  rw [tally, Finset.card_filter]
  apply Finset.sum_congr rfl
  intro one _
  cases there one <;> rfl

theorem tally_of_ne [Fintype ι] [DecidableEq ι] {before after : ι → Bool}
    {one : ι} (others : ∀ other, other ≠ one → after other = before other) :
    tally after + (before one).toNat = tally before + (after one).toNat := by
  rw [tally_eq_sum, tally_eq_sum]
  refine @total_of_ne _ _ Finset.univ (fun one => (before one).toNat)
    (fun one => (after one).toNat) one (Finset.mem_univ one) ?_
  intro other _ different
  simp only [others other different]

theorem tally_pos [Fintype ι] (there : ι → Bool) {one : ι}
    (here : there one = true) : 0 < tally there :=
  Finset.card_pos.mpr ⟨one, Finset.mem_filter.mpr ⟨Finset.mem_univ one, here⟩⟩

theorem tally_eq_zero [Fintype ι] {there : ι → Bool} :
    tally there = 0 ↔ ∀ one, there one = false := by
  rw [tally, Finset.card_eq_zero, Finset.filter_eq_empty_iff]
  simp

/-- The parties as a list, each with a list of what it has. -/
theorem count_flatten_set [DecidableEq α] {parties : List (List α)} {one : Nat}
    {before : List α} (held : parties[one]? = some before) (after : List α)
    (value : α) :
    (parties.set one after).flatten.count value + before.count value =
      parties.flatten.count value + after.count value := by
  induction parties generalizing one with
  | nil => cases held
  | cons party rest ih =>
      cases one with
      | zero =>
          cases held
          simp only [List.set_cons_zero, List.flatten_cons, List.count_append]
          omega
      | succ one =>
          have later := ih held
          simp only [List.set_cons_succ, List.flatten_cons, List.count_append]
          omega

end Sylar.Logic
