import Mathlib.Data.List.Basic

namespace Sylar.Data

/-! Contents kept in blocks of one size, of which only the last has room. -/

structure Blocks (α : Type) (size : Nat) where
  blocks : List (List α)
  full : ∀ block ∈ blocks.dropLast, block.length = size
  small : ∀ block ∈ blocks, block.length ≤ size

namespace Blocks

variable {α : Type} {size : Nat}

def empty : Blocks α size := ⟨[], by simp, by simp⟩

/-- The blocks before the one that is written to next, and that one: the last,
unless it is full. -/
def room (b : Blocks α size) : List (List α) × List α :=
  match b.blocks.getLast? with
  | some back =>
      if back.length ≠ size then (b.blocks.dropLast, back) else (b.blocks, [])
  | none => (b.blocks, [])

def contents (b : Blocks α size) : List α := b.blocks.flatten

theorem room_contents (b : Blocks α size) :
    b.room.1.flatten ++ b.room.2 = b.contents := by
  unfold room contents
  split
  · rename_i back last
    split
    · rw [← List.flatten_concat, List.dropLast_append_getLast? back last]
    · rw [List.append_nil]
  · rw [List.append_nil]

theorem room_full (b : Blocks α size) :
    ∀ block ∈ b.room.1, block.length = size := by
  unfold room
  split
  · rename_i back last
    split
    · exact b.full
    · rename_i whole
      intro block member
      rw [← List.dropLast_append_getLast? back last] at member
      rcases List.mem_append.mp member with before | here
      · exact b.full block before
      · rw [List.mem_singleton.mp here]
        exact not_not.mp whole
  · rename_i none
    rw [List.getLast?_eq_none_iff.mp none]
    simp

theorem room_small (b : Blocks α size) : b.room.2.length ≤ size := by
  unfold room
  split
  · rename_i back last
    split
    · exact b.small back (List.mem_of_getLast? last)
    · exact Nat.zero_le _
  · exact Nat.zero_le _

theorem room_lt (b : Blocks α size) (positive : 0 < size) :
    b.room.2.length < size := by
  unfold room
  split
  · rename_i back last
    split
    · exact Nat.lt_of_le_of_ne (b.small back (List.mem_of_getLast? last)) ‹_›
    · exact positive
  · exact positive

def avail (b : Blocks α size) : Nat := size - b.room.2.length

theorem avail_pos (b : Blocks α size) (positive : 0 < size) : 0 < b.avail :=
  Nat.sub_pos_of_lt (b.room_lt positive)

theorem avail_le (b : Blocks α size) : b.avail ≤ size := Nat.sub_le _ _

/-- With what was written to the room there is. -/
def fill (b : Blocks α size) (out : List α) (fits : out.length ≤ b.avail) :
    Blocks α size where
  blocks := b.room.1 ++ [b.room.2 ++ out]
  full := by
    rw [List.dropLast_concat]
    exact b.room_full
  small := by
    intro block member
    rcases List.mem_append.mp member with before | here
    · exact Nat.le_of_eq (b.room_full block before)
    · have small := b.room_small
      rw [List.mem_singleton.mp here, List.length_append]
      unfold avail at fits
      omega

@[simp] theorem fill_contents (b : Blocks α size) (out : List α)
    (fits : out.length ≤ b.avail) :
    (b.fill out fits).contents = b.contents ++ out := by
  rw [contents, fill, List.flatten_concat, ← List.append_assoc, room_contents]

end Blocks

end Sylar.Data
