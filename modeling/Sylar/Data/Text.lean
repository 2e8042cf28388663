import Mathlib.Data.List.Basic

namespace Sylar.Data

/-! Texts as lists of characters. A pointer into a text is the rest of the text
from there. -/

abbrev Text := List Char

def decimal (value : Nat) : Text := Nat.toDigits 10 value

def hexadecimal (value : Nat) : Text := Nat.toDigits 16 value

def memchr (c : Char) : Text → Option Text
  | [] => none
  | first :: rest => if first = c then some (first :: rest) else memchr c rest

theorem memchr_none {c : Char} {text : Text} (absent : c ∉ text) :
    memchr c text = none := by
  induction text with
  | nil => rfl
  | cons first rest ih =>
      obtain ⟨differs, later⟩ := List.ne_and_not_mem_of_not_mem_cons absent
      rw [memchr, if_neg (Ne.symm differs), ih later]

theorem memchr_append {c : Char} {before : Text} (absent : c ∉ before)
    (rest : Text) : memchr c (before ++ c :: rest) = some (c :: rest) := by
  induction before with
  | nil => exact if_pos rfl
  | cons first before ih =>
      obtain ⟨differs, later⟩ := List.ne_and_not_mem_of_not_mem_cons absent
      rw [List.cons_append, memchr, if_neg (Ne.symm differs), ih later]

theorem mem_toDigits {base value : Nat} (positive : 1 < base) {c : Char}
    (member : c ∈ Nat.toDigits base value) :
    ∃ digit < base, c = digit.digitChar := by
  induction value using Nat.strongRecOn with
  | ind value ih =>
      rw [Nat.toDigits_eq_if positive] at member
      split at member
      · rename_i small
        exact ⟨value, small, List.mem_singleton.mp member⟩
      · rename_i large
        rcases List.mem_append.mp member with earlier | last
        · exact ih (value / base) (Nat.div_lt_self (by omega) positive) earlier
        · exact ⟨value % base, Nat.mod_lt _ (by omega),
            List.mem_singleton.mp last⟩

theorem not_mem_decimal {c : Char} (other : c.isDigit = false) (value : Nat) :
    c ∉ decimal value := by
  intro member
  have digit := Nat.isDigit_of_mem_toDigits (by decide) (by decide) member
  rw [other] at digit
  cases digit

theorem not_mem_hexadecimal {c : Char} (other : ∀ digit < 16, c ≠ Nat.digitChar digit)
    (value : Nat) : c ∉ hexadecimal value := by
  intro member
  obtain ⟨digit, small, same⟩ := mem_toDigits (by decide) member
  exact other digit small same

theorem decimal_ne_nil (value : Nat) : decimal value ≠ [] :=
  Nat.toDigits_ne_nil

theorem hexadecimal_ne_nil (value : Nat) : hexadecimal value ≠ [] :=
  Nat.toDigits_ne_nil

theorem take_before (before after : Text) :
    (before ++ after).take ((before ++ after).length - after.length) =
      before := by
  rw [List.length_append, Nat.add_sub_cancel, List.take_left]

end Sylar.Data
