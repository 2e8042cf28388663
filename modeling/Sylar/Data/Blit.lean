import Mathlib.Data.List.Basic
import Mathlib.Tactic.Ring

namespace Sylar.Data

/-! Overwriting a range of a fixed-size memory. -/

/-- Store `source` at `offset`. What does not fit is dropped, so the memory
keeps its length. -/
def blit : List α → Nat → List α → List α
  | [], _, _ => []
  | cell :: memory, 0, [] => cell :: memory
  | _ :: memory, 0, item :: source => item :: blit memory 0 source
  | cell :: memory, offset + 1, source => cell :: blit memory offset source

@[simp] theorem blit_nil (offset : Nat) (source : List α) :
    blit [] offset source = [] := by
  cases offset <;> rfl

@[simp] theorem blit_length (memory : List α) (offset : Nat)
    (source : List α) : (blit memory offset source).length = memory.length := by
  induction memory generalizing offset source with
  | nil => simp
  | cons cell memory ih =>
      cases offset with
      | zero =>
          cases source with
          | nil => rfl
          | cons item source => simp [blit, ih]
      | succ offset => simp [blit, ih]

@[simp] theorem blit_empty (memory : List α) (offset : Nat) :
    blit memory offset [] = memory := by
  induction memory generalizing offset with
  | nil => simp
  | cons cell memory ih =>
      cases offset with
      | zero => rfl
      | succ offset => simp [blit, ih]

theorem blit_getElem? (memory : List α) (offset : Nat) (source : List α)
    (index : Nat) :
    (blit memory offset source)[index]? =
      if offset ≤ index ∧ index < offset + source.length ∧
          index < memory.length then
        source[index - offset]?
      else memory[index]? := by
  induction memory generalizing offset source index with
  | nil => simp
  | cons cell memory ih =>
      cases offset with
      | zero =>
          cases source with
          | nil => simp [blit]
          | cons item source =>
              cases index with
              | zero => simp [blit]
              | succ index => simp [blit, ih]
      | succ offset =>
          cases index with
          | zero => simp [blit]
          | succ index =>
              have shifted : index + 1 < offset + 1 + source.length ↔
                  index < offset + source.length := by omega
              simp [blit, ih, shifted]

/-- A store that ends inside the first part leaves the second part alone. -/
theorem blit_append_left {front back : List α} {offset : Nat}
    {source : List α} (fits : offset + source.length ≤ front.length) :
    blit (front ++ back) offset source = blit front offset source ++ back := by
  induction front generalizing offset source with
  | nil =>
      have : source = [] := by
        apply List.eq_nil_of_length_eq_zero
        rw [List.length_nil] at fits
        omega
      simp [this]
  | cons cell front ih =>
      cases offset with
      | zero =>
          cases source with
          | nil => rfl
          | cons item source =>
              simp only [List.cons_append, blit]
              rw [ih (by simpa using fits)]
      | succ offset =>
          simp only [List.cons_append, blit]
          rw [ih (by simp only [List.length_cons] at fits; omega)]

theorem blit_append_right (front back : List α) (offset : Nat)
    (source : List α) :
    blit (front ++ back) (front.length + offset) source =
      front ++ blit back offset source := by
  induction front with
  | nil => simp
  | cons cell front ih =>
      rw [List.length_cons, show front.length + 1 + offset =
        front.length + offset + 1 by omega]
      simp only [List.cons_append, blit, ih]

theorem blit_append_source (memory : List α) (offset : Nat)
    (first second : List α) :
    blit memory offset (first ++ second) =
      blit (blit memory offset first) (offset + first.length) second := by
  apply List.ext_getElem?
  intro index
  simp only [blit_getElem?, blit_length, List.length_append]
  by_cases inside : index < memory.length
  · by_cases before : index < offset
    · rw [if_neg (by omega), if_neg (by omega), if_neg (by omega)]
    · by_cases early : index < offset + first.length
      · rw [if_pos (by omega), if_neg (by omega), if_pos (by omega)]
        exact List.getElem?_append_left (by omega)
      · by_cases late : index < offset + (first.length + second.length)
        · rw [if_pos (by omega), if_pos (by omega),
            List.getElem?_append_right (by omega)]
          congr 1
          omega
        · rw [if_neg (by omega), if_neg (by omega), if_neg (by omega)]
  · rw [if_neg (by omega), if_neg (by omega), if_neg (by omega)]

theorem blit_append_split {front back : List α} {offset : Nat}
    {first second : List α}
    (boundary : offset + first.length = front.length) :
    blit (front ++ back) offset (first ++ second) =
      blit front offset first ++ blit back 0 second := by
  rw [blit_append_source, blit_append_left (by omega), boundary]
  have := blit_append_right (blit front offset first) back 0 second
  simpa using this

theorem drop_take_blit {memory : List α} {offset : Nat} {source : List α}
    (fits : offset + source.length ≤ memory.length) :
    ((blit memory offset source).drop offset).take source.length = source := by
  apply List.ext_getElem?
  intro index
  by_cases inside : index < source.length
  · rw [List.getElem?_take_of_lt inside, List.getElem?_drop, blit_getElem?,
      if_pos (by omega)]
    congr 1
    omega
  · rw [List.getElem?_eq_none (by simp; omega),
      List.getElem?_eq_none (by omega)]

theorem take_blit {memory : List α} {offset count : Nat} {source : List α}
    (before : count ≤ offset) :
    (blit memory offset source).take count = memory.take count := by
  apply List.ext_getElem?
  intro index
  by_cases inside : index < count
  · rw [List.getElem?_take_of_lt inside, List.getElem?_take_of_lt inside,
      blit_getElem?, if_neg (by omega)]
  · rw [List.getElem?_eq_none (by simp; omega),
      List.getElem?_eq_none (by simp; omega)]

/-! Memory cut into chunks of one size. -/

theorem flatten_length_uniform {size : Nat} {chunks : List (List α)}
    (uniform : ∀ chunk ∈ chunks, chunk.length = size) :
    chunks.flatten.length = size * chunks.length := by
  induction chunks with
  | nil => simp
  | cons chunk chunks ih =>
      rw [List.flatten_cons, List.length_append, uniform chunk (by simp),
        ih fun other member => uniform other (by simp [member]),
        List.length_cons]
      ring

theorem flatten_drop_uniform {size : Nat} {chunks : List (List α)}
    (uniform : ∀ chunk ∈ chunks, chunk.length = size) (count : Nat) :
    (chunks.drop count).flatten = chunks.flatten.drop (size * count) := by
  induction count generalizing chunks with
  | zero => simp
  | succ count ih =>
      cases chunks with
      | nil => simp
      | cons chunk chunks =>
          have head : chunk.length = size := uniform chunk (by simp)
          have reach : size * (count + 1) = chunk.length + size * count := by
            rw [head]
            ring
          rw [List.drop_succ_cons, List.flatten_cons, reach,
            List.drop_length_add_append]
          exact ih fun other member => uniform other (by simp [member])

theorem flatten_take_uniform {size : Nat} {chunks : List (List α)}
    (uniform : ∀ chunk ∈ chunks, chunk.length = size) (count : Nat) :
    (chunks.take count).flatten = chunks.flatten.take (size * count) := by
  have split : (chunks.take count).flatten ++ (chunks.drop count).flatten =
      chunks.flatten.take (size * count) ++
        chunks.flatten.drop (size * count) := by
    rw [← List.flatten_append, List.take_append_drop, List.take_append_drop]
  rw [flatten_drop_uniform uniform] at split
  exact List.append_cancel_right split

end Sylar.Data
