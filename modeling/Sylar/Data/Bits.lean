import Sylar.Data.Word

namespace Sylar.Data

/-! The bits of a byte string in the order they are read: the most significant
bit of the first byte comes first. -/

def bitAt (bytes : List UInt8) (index : Nat) : Bool :=
  (bytes.getD (index / 8) 0).toNat.testBit (7 - index % 8)

theorem leBytes_getD {width index : Nat} (value : Nat)
    (inside : index < width) :
    (leBytes width value).getD index 0 = UInt8.ofNat (value / 256 ^ index) := by
  induction width generalizing value index with
  | zero => omega
  | succ width ih =>
      cases index with
      | zero => simp [leBytes]
      | succ index =>
          rw [leBytes, List.getD_cons_succ, ih _ (by omega),
            Nat.div_div_eq_div_mul, Nat.pow_succ']

theorem testBit_byte (value : Nat) {index bit : Nat} (small : bit < 8) :
    (UInt8.ofNat (value / 256 ^ index)).toNat.testBit bit =
      value.testBit (8 * index + bit) := by
  have power : 256 ^ index = 2 ^ (8 * index) := by rw [Nat.pow_mul]
  rw [UInt8.toNat_ofNat', power, Nat.testBit_mod_two_pow,
    Nat.testBit_div_two_pow, Nat.add_comm]
  simp [small]

theorem bitAt_leBytes (value : Nat) {width index : Nat}
    (inside : index < 8 * width) :
    bitAt (leBytes width value) index =
      value.testBit (8 * (index / 8) + (7 - index % 8)) := by
  rw [bitAt, leBytes_getD value (by omega), testBit_byte value (by omega)]

theorem bitAt_leBytes_reverse (value : Nat) {width index : Nat}
    (inside : index < 8 * width) :
    bitAt (leBytes width value).reverse index =
      value.testBit (8 * width - 1 - index) := by
  have mirrored : (leBytes width value).reverse.getD (index / 8) 0 =
      (leBytes width value).getD (width - 1 - index / 8) 0 := by
    rw [List.getD_eq_getElem?_getD, List.getD_eq_getElem?_getD,
      List.getElem?_reverse (by simp; omega), leBytes_length]
  rw [bitAt, mirrored, leBytes_getD value (by omega),
    testBit_byte value (by omega)]
  congr 1
  omega

end Sylar.Data
