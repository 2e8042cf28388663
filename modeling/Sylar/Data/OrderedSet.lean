import Mathlib.Data.List.Pairwise
import Mathlib.Data.List.TakeWhile
import Mathlib.Order.Lattice
import Mathlib.Tactic.Tauto

namespace Sylar.Data

/-! A set kept in the order of a key, as the list of its elements. The key may
change between two operations, of elements that are not in the set. -/

variable {α κ : Type} [LinearOrder κ]

namespace OrderedSet

def Sorted (key : α → κ) (set : List α) : Prop :=
  set.Pairwise fun first second => key first < key second

def find (key : α → κ) (val : α) : List α → Option α
  | [] => none
  | it :: rest =>
      if key it < key val then find key val rest
      else if key val < key it then none
      else some it

def insert (key : α → κ) (val : α) : List α → List α
  | [] => [val]
  | it :: rest =>
      if key it < key val then it :: insert key val rest
      else if key val < key it then val :: it :: rest
      else it :: rest

/-- The elements before `lower_bound`. -/
def below (key : α → κ) (bound : κ) (set : List α) : List α :=
  set.takeWhile fun it => key it < bound

/-- The elements from `lower_bound` on. -/
def lowerBound (key : α → κ) (bound : κ) (set : List α) : List α :=
  set.dropWhile fun it => key it < bound

theorem sorted_nil (key : α → κ) : Sorted key [] :=
  List.Pairwise.nil

theorem sorted_erase [BEq α] {key : α → κ} {set : List α} (sorted : Sorted key set)
    (val : α) : Sorted key (set.erase val) :=
  sorted.sublist List.erase_sublist

/-- A change of the keys of other elements does not matter. -/
theorem sorted_congr {key changed : α → κ} {set : List α}
    (sorted : Sorted key set) (same : ∀ it ∈ set, changed it = key it) :
    Sorted changed set := by
  refine List.Pairwise.imp_of_mem ?_ sorted
  intro first second inside member less
  rwa [same first inside, same second member]

theorem nodup {key : α → κ} {set : List α} (sorted : Sorted key set) :
    set.Nodup := by
  refine List.Pairwise.imp ?_ sorted
  rintro first second less rfl
  exact lt_irrefl _ less

theorem find_eq_some {key : α → κ} {val it : α} {set : List α}
    (sorted : Sorted key set) (member : it ∈ set) (same : key it = key val) :
    find key val set = some it := by
  induction set with
  | nil => cases member
  | cons head rest ih =>
      obtain ⟨first, ordered⟩ := List.pairwise_cons.mp sorted
      rcases List.mem_cons.mp member with rfl | later
      · simp [find, same]
      · have before : key head < key val := same ▸ first it later
        simp [find, before, ih ordered later]

theorem find_mem {key : α → κ} {val : α} {set : List α}
    (sorted : Sorted key set) (member : val ∈ set) :
    find key val set = some val :=
  find_eq_some sorted member rfl

theorem of_find {key : α → κ} {val it : α} {set : List α}
    (found : find key val set = some it) : it ∈ set ∧ key it = key val := by
  induction set with
  | nil => cases found
  | cons head rest ih =>
      unfold find at found
      split at found
      · obtain ⟨member, same⟩ := ih found
        exact ⟨List.mem_cons_of_mem head member, same⟩
      · split at found
        · cases found
        · rename_i above before
          cases found
          exact ⟨List.mem_cons_self,
            le_antisymm (not_lt.mp before) (not_lt.mp above)⟩

theorem mem_of_find {key : α → κ} (injective : Function.Injective key)
    {val it : α} {set : List α} (found : find key val set = some it) :
    it = val ∧ val ∈ set := by
  obtain ⟨member, same⟩ := of_find found
  obtain rfl := injective same
  exact ⟨rfl, member⟩

theorem find_eq_none {key : α → κ} {val : α} {set : List α}
    (sorted : Sorted key set) :
    find key val set = none ↔ ∀ it ∈ set, key it ≠ key val := by
  constructor
  · intro absent it member same
    rw [find_eq_some sorted member same] at absent
    cases absent
  · intro different
    cases found : find key val set with
    | none => rfl
    | some it =>
        obtain ⟨member, same⟩ := of_find found
        exact absurd same (different it member)

theorem mem_insert {key : α → κ} (injective : Function.Injective key)
    {val it : α} {set : List α} :
    it ∈ insert key val set ↔ it = val ∨ it ∈ set := by
  induction set with
  | nil => simp [insert]
  | cons head rest ih =>
      unfold insert
      split
      · rw [List.mem_cons, ih, List.mem_cons]
        tauto
      · split
        · rw [List.mem_cons]
        · rename_i above before
          have same := injective (le_antisymm (not_lt.mp before) (not_lt.mp above))
          rw [List.mem_cons, same]
          tauto

theorem of_mem_insert {key : α → κ} {val it : α} {set : List α}
    (member : it ∈ insert key val set) : it = val ∨ it ∈ set := by
  induction set with
  | nil => exact .inl (List.mem_singleton.mp member)
  | cons head rest ih =>
      unfold insert at member
      split at member
      · rcases List.mem_cons.mp member with here | later
        · exact .inr (here ▸ List.mem_cons_self)
        · exact (ih later).imp_right (List.mem_cons_of_mem head)
      · split at member
        · exact List.mem_cons.mp member
        · exact .inr member

theorem sorted_insert {key : α → κ} (val : α) {set : List α}
    (sorted : Sorted key set) : Sorted key (insert key val set) := by
  induction set with
  | nil => exact List.pairwise_singleton _ _
  | cons head rest ih =>
      obtain ⟨first, ordered⟩ := List.pairwise_cons.mp sorted
      unfold insert
      split
      · rename_i above
        refine List.pairwise_cons.mpr ⟨?_, ih ordered⟩
        intro it member
        rcases of_mem_insert member with rfl | later
        · exact above
        · exact first it later
      · split
        · rename_i before
          refine List.pairwise_cons.mpr ⟨?_, sorted⟩
          intro it member
          rcases List.mem_cons.mp member with rfl | later
          · exact before
          · exact lt_trans before (first it later)
        · exact sorted

theorem insert_last {key : α → κ} {val : α} {set : List α}
    (above : ∀ it ∈ set, key it < key val) : insert key val set = set ++ [val] := by
  induction set with
  | nil => rfl
  | cons head rest ih =>
      obtain ⟨first, later⟩ := List.forall_mem_cons.mp above
      rw [insert, if_pos first, ih later]
      rfl

/-- What is inserted in order stays in order. -/
theorem foldl_insert {key : α → κ} {set more : List α}
    (sorted : Sorted key (set ++ more)) :
    more.foldl (fun set val => insert key val set) set = set ++ more := by
  induction more generalizing set with
  | nil => exact (List.append_nil set).symm
  | cons val more ih =>
      have above : ∀ it ∈ set, key it < key val := fun it member =>
        (List.pairwise_append.mp sorted).2.2 it member val List.mem_cons_self
      rw [List.foldl_cons, insert_last above, ih, List.append_assoc]
      · rfl
      · rw [List.append_assoc]
        exact sorted

theorem below_append_lowerBound (key : α → κ) (bound : κ) (set : List α) :
    below key bound set ++ lowerBound key bound set = set :=
  List.takeWhile_append_dropWhile

theorem of_mem_below {key : α → κ} {bound : κ} {set : List α} {it : α}
    (member : it ∈ below key bound set) : key it < bound := by
  simpa using List.mem_takeWhile_imp member

/-- Once a condition fails for an element it fails for all that follow, so those
left are the ones it fails for. -/
theorem not_of_mem_dropWhile {holds : α → Bool} {set : List α}
    (closed : set.Pairwise fun first second => holds second → holds first) :
    ∀ it ∈ set.dropWhile holds, ¬holds it := by
  induction set with
  | nil => simp
  | cons head rest ih =>
      obtain ⟨first, later⟩ := List.pairwise_cons.mp closed
      rw [List.dropWhile_cons]
      split
      · exact ih later
      · rename_i fails
        intro it member
        rcases List.mem_cons.mp member with rfl | after
        · exact fails
        · exact fun held => fails (first it after held)

theorem le_of_mem_lowerBound {key : α → κ} {bound : κ} {set : List α} {it : α}
    (sorted : Sorted key set) (member : it ∈ lowerBound key bound set) :
    bound ≤ key it := by
  have fails := not_of_mem_dropWhile (sorted.imp fun less below => by
    rw [decide_eq_true_eq] at below ⊢
    exact less.trans below) it member
  simpa using fails

theorem filter_eq_first {holds : α → Bool} {set first rest : List α}
    (parts : first ++ rest = set) (inside : ∀ it ∈ first, holds it)
    (outside : ∀ it ∈ rest, ¬holds it) : set.filter holds = first := by
  rw [← parts, List.filter_append, List.filter_eq_self.mpr inside,
    List.filter_eq_nil_iff.mpr outside, List.append_nil]

end OrderedSet

end Sylar.Data
