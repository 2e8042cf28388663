import Mathlib.Data.List.AList

namespace Sylar.Data

/-! A map of values under their keys, and a second one that has the same values
under their group and then their key. -/

abbrev Table (ι α : Type) := AList fun _ : ι => α

namespace Grouped

variable {ι κ α : Type} [DecidableEq ι] [DecidableEq κ]

/-- What is under a group and a key. -/
def find (groups : Table κ (Table ι α)) (group : κ) (key : ι) : Option α :=
  (groups.lookup group).bind fun table => table.lookup key

/-- The table of a group, that `operator[]` makes when there is none. -/
def tableOf (groups : Table κ (Table ι α)) (group : κ) : Table ι α :=
  (groups.lookup group).getD ∅

def put (groups : Table κ (Table ι α)) (group : κ) (key : ι) (value : α) :
    Table κ (Table ι α) :=
  groups.insert group ((tableOf groups group).insert key value)

/-- A group without values goes. -/
def drop (groups : Table κ (Table ι α)) (group : κ) (key : ι) :
    Table κ (Table ι α) :=
  if ((tableOf groups group).erase key).entries.isEmpty then groups.erase group
  else groups.insert group ((tableOf groups group).erase key)

theorem lookup_tableOf (groups : Table κ (Table ι α)) (group : κ) (key : ι) :
    (tableOf groups group).lookup key = find groups group key := by
  unfold tableOf find
  cases groups.lookup group <;> simp

theorem find_put (groups : Table κ (Table ι α)) (group other : κ) (key also : ι)
    (value : α) :
    find (put groups group key value) other also =
      if other = group ∧ also = key then some value else find groups other also := by
  unfold put
  rcases eq_or_ne other group with rfl | apart
  · rw [find, AList.lookup_insert, Option.bind_some]
    rcases eq_or_ne also key with rfl | different
    · simp
    · rw [AList.lookup_insert_ne different, lookup_tableOf]
      simp [different]
  · rw [find, AList.lookup_insert_ne apart]
    simp [apart, find]

theorem find_drop (groups : Table κ (Table ι α)) (group other : κ) (key also : ι) :
    find (drop groups group key) other also =
      if other = group ∧ also = key then none else find groups other also := by
  have left : ((tableOf groups group).erase key).lookup also =
      if also = key then none else find groups group also := by
    rcases eq_or_ne also key with rfl | different
    · simp
    · rw [AList.lookup_erase_ne different, lookup_tableOf, if_neg different]
  unfold drop
  split
  · rename_i empty
    have nothing : (tableOf groups group).erase key = ∅ :=
      AList.ext (List.isEmpty_iff.mp empty)
    rcases eq_or_ne other group with rfl | apart
    · rw [find, AList.lookup_erase, Option.bind_none]
      rw [nothing, AList.lookup_empty] at left
      exact left.trans (by simp)
    · rw [find, AList.lookup_erase_ne apart]
      simp [apart, find]
  · rcases eq_or_ne other group with rfl | apart
    · rw [find, AList.lookup_insert, Option.bind_some, left]
      simp
    · rw [find, AList.lookup_insert_ne apart]
      simp [apart, find]

/-- The second map has the values of the first, each under its group, and no group
without values. -/
structure Agree (key : α → ι) (group : α → κ) (values : Table ι α)
    (groups : Table κ (Table ι α)) : Prop where
  keyed : ∀ under value, values.lookup under = some value → key value = under
  same : ∀ which under, find groups which under =
    (values.lookup under).filter fun value => group value = which
  occupied : ∀ which table, groups.lookup which = some table → table ≠ ∅

namespace Agree

variable {key : α → ι} {group : α → κ} {values : Table ι α}
  {groups : Table κ (Table ι α)}

theorem empty (key : α → ι) (group : α → κ) :
    Agree key group (∅ : Table ι α) (∅ : Table κ (Table ι α)) where
  keyed := by simp
  same := by simp [find]
  occupied := by simp

theorem put (agree : Agree key group values groups) (value : α)
    (free : ∀ old, values.lookup (key value) = some old → old = value) :
    Agree key group (values.insert (key value) value)
      (put groups (group value) (key value) value) where
  keyed := by
    intro under found held
    rcases eq_or_ne under (key value) with rfl | different
    · rw [AList.lookup_insert] at held
      cases held
      rfl
    · rw [AList.lookup_insert_ne different] at held
      exact agree.keyed under found held
  same := by
    intro which under
    rw [find_put, agree.same]
    rcases eq_or_ne under (key value) with rfl | different
    · rw [AList.lookup_insert]
      rcases eq_or_ne which (group value) with rfl | apart
      · simp [Option.filter]
      · cases held : values.lookup (key value) with
        | none => simp [Option.filter, apart, Ne.symm apart]
        | some old =>
            obtain rfl := free old held
            simp [apart]
    · rw [AList.lookup_insert_ne different]
      simp [different]
  occupied := by
    intro which table held
    unfold Grouped.put at held
    rcases eq_or_ne which (group value) with rfl | apart
    · rw [AList.lookup_insert] at held
      cases held
      intro nothing
      have present := AList.lookup_insert (a := key value) (b := value)
        (tableOf groups (group value))
      rw [nothing, AList.lookup_empty] at present
      cases present
    · rw [AList.lookup_insert_ne apart] at held
      exact agree.occupied which table held

theorem drop (agree : Agree key group values groups) {value : α}
    (held : values.lookup (key value) = some value) :
    Agree key group (values.erase (key value))
      (drop groups (group value) (key value)) where
  keyed := by
    intro under found left
    rcases eq_or_ne under (key value) with rfl | different
    · rw [AList.lookup_erase] at left
      cases left
    · rw [AList.lookup_erase_ne different] at left
      exact agree.keyed under found left
  same := by
    intro which under
    rw [find_drop, agree.same]
    rcases eq_or_ne under (key value) with rfl | different
    · rw [AList.lookup_erase, held]
      rcases eq_or_ne which (group value) with rfl | apart
      · simp
      · simp [apart, Ne.symm apart]
    · rw [AList.lookup_erase_ne different]
      simp [different]
  occupied := by
    intro which table left
    unfold Grouped.drop at left
    split at left
    · rcases eq_or_ne which (group value) with rfl | apart
      · rw [AList.lookup_erase] at left
        cases left
      · rw [AList.lookup_erase_ne apart] at left
        exact agree.occupied which table left
    · rename_i some_left
      rcases eq_or_ne which (group value) with rfl | apart
      · rw [AList.lookup_insert] at left
        cases left
        rintro nothing
        rw [nothing] at some_left
        exact some_left rfl
      · rw [AList.lookup_insert_ne apart] at left
        exact agree.occupied which table left

end Agree

end Grouped

end Sylar.Data
