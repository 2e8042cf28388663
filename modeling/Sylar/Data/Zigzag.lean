import Mathlib.Tactic.Ring

namespace Sylar.Data

/-! Signed numbers as unsigned ones with the sign in the lowest bit. -/

def zigzag (x : BitVec w) : BitVec w :=
  if x.msb then -x * 2#w - 1#w else x * 2#w

def unzigzag (y : BitVec w) : BitVec w :=
  (y >>> 1) ^^^ (0#w - (y &&& 1#w))

theorem shiftLeft_one_eq (x : BitVec w) : x <<< 1 = x * 2#w := by
  apply BitVec.eq_of_toNat_eq
  rw [BitVec.toNat_shiftLeft, BitVec.toNat_mul, BitVec.toNat_ofNat,
    Nat.shiftLeft_eq, Nat.mul_mod_mod]

/-- The lowest bit is free, and tells whether the others are inverted. -/
theorem zigzag_eq (x : BitVec w) :
    zigzag x = if x.msb then ~~~(x <<< 1) else x <<< 1 := by
  unfold zigzag
  rw [shiftLeft_one_eq, BitVec.not_eq_neg_add, BitVec.neg_mul]

theorem getLsbD_shifted (x : BitVec w) {i : Nat} (inside : i < w) :
    (if 1 + i < w then x.getLsbD i else x.msb) = x[i] := by
  split
  · exact BitVec.getLsbD_eq_getElem inside
  · have last : w - 1 = i := by omega
    rw [BitVec.msb_eq_getLsbD_last, last]
    exact BitVec.getLsbD_eq_getElem inside

theorem unzigzag_zigzag (x : BitVec w) : unzigzag (zigzag x) = x := by
  unfold unzigzag
  rw [zigzag_eq]
  split
  · rename_i negative
    have odd : ~~~(x <<< 1) &&& 1#w = 1#w := by
      ext i inside
      rcases i with _ | i <;> simp
    have ones : 0#w - 1#w = BitVec.allOnes w := by
      rw [BitVec.zero_sub, BitVec.neg_one_eq_allOnes]
    rw [odd, ones, BitVec.xor_allOnes]
    ext i inside
    rw [← getLsbD_shifted x inside]
    by_cases within : 1 + i < w <;> simp [within, negative, inside]
  · rename_i positive
    have even : x <<< 1 &&& 1#w = 0#w := by
      ext i inside
      rcases i with _ | i <;> simp
    rw [even]
    ext i inside
    rw [← getLsbD_shifted x inside]
    by_cases within : 1 + i < w <;> simp [within, positive, inside]

end Sylar.Data
