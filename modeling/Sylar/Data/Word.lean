import Mathlib.Tactic.Ring

namespace Sylar.Data

/-! Fixed-width numbers as bytes, least significant byte first. -/

def leBytes : Nat → Nat → List UInt8
  | 0, _ => []
  | width + 1, value => UInt8.ofNat value :: leBytes width (value / 256)

def ofLeBytes : List UInt8 → Nat
  | [] => 0
  | byte :: rest => byte.toNat + 256 * ofLeBytes rest

@[simp] theorem leBytes_length (width value : Nat) :
    (leBytes width value).length = width := by
  induction width generalizing value with
  | zero => rfl
  | succ width ih => simp [leBytes, ih]

theorem ofLeBytes_leBytes (width value : Nat) :
    ofLeBytes (leBytes width value) = value % 256 ^ width := by
  induction width generalizing value with
  | zero => simp [leBytes, ofLeBytes, Nat.mod_one]
  | succ width ih =>
      rw [leBytes, ofLeBytes, ih, Nat.pow_succ, Nat.mul_comm (256 ^ width),
        Nat.mod_mul]
      simp

theorem leBytes_ofLeBytes (bytes : List UInt8) :
    leBytes bytes.length (ofLeBytes bytes) = bytes := by
  induction bytes with
  | nil => rfl
  | cons byte rest ih =>
      have small : byte.toNat < 256 := byte.toNat_lt
      have quotient : (byte.toNat + 256 * ofLeBytes rest) / 256 =
          ofLeBytes rest := by omega
      rw [List.length_cons, leBytes, ofLeBytes, quotient, ih]
      congr 1
      apply UInt8.toNat_inj.mp
      rw [UInt8.toNat_ofNat']
      omega

theorem ofLeBytes_lt (bytes : List UInt8) :
    ofLeBytes bytes < 256 ^ bytes.length := by
  induction bytes with
  | nil => simp [ofLeBytes]
  | cons byte rest ih =>
      have small : byte.toNat < 256 := byte.toNat_lt
      rw [ofLeBytes, List.length_cons, Nat.pow_succ]
      omega

/-- The same number with its bytes in the opposite order. -/
def swapBytes (width value : Nat) : Nat :=
  ofLeBytes (leBytes width value).reverse

theorem swapBytes_lt (width value : Nat) :
    swapBytes width value < 256 ^ width := by
  have := ofLeBytes_lt (leBytes width value).reverse
  rwa [List.length_reverse, leBytes_length] at this

theorem swapBytes_swapBytes {width value : Nat}
    (bound : value < 256 ^ width) :
    swapBytes width (swapBytes width value) = value := by
  have length : (leBytes width value).reverse.length = width := by simp
  have bytes : leBytes width (ofLeBytes (leBytes width value).reverse) =
      (leBytes width value).reverse := by
    have := leBytes_ofLeBytes (leBytes width value).reverse
    rwa [length] at this
  rw [swapBytes, swapBytes, bytes, List.reverse_reverse, ofLeBytes_leBytes,
    Nat.mod_eq_of_lt bound]

end Sylar.Data

namespace Sylar

/-- Conversion to `int`. -/
def toInt32 (value : Int) : Int := value.bmod (2 ^ 32)

theorem toInt32_of_small {value : Nat} (small : value < 2 ^ 31) :
    toInt32 value = value :=
  Int.bmod_eq_of_le (by omega) (by omega)

theorem toInt32_of_large {value : Nat} (large : 2 ^ 31 ≤ value)
    (bound : value < 2 ^ 32) : toInt32 value < 0 :=
  (Int.bmod_neg_iff (by omega) (by omega)).mpr (.inr (by omega))

theorem toInt32_lt (value : Int) : toInt32 value < 2 ^ 31 := by
  have := @Int.bmod_lt value (2 ^ 32) (by decide)
  unfold toInt32
  omega

end Sylar
