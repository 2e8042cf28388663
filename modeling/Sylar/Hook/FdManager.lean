import Mathlib.Logic.Function.Basic
import Sylar.Stream.Counts

namespace Sylar.Socket

open Counts

/-! `Socket::setRecvTimeout` and `getRecvTimeout`, and the same for sending, through
`s_setsockopt` and the `FdCtx` of the descriptor. -/

deriving instance DecidableEq for SockOpt

/-- `FdCtx::setTimeout`. -/
def Counts.FdCtx.setTimeout (ctx : FdCtx) (type : SockOpt) (v : UInt64) : FdCtx :=
  match type with
  | .SO_RCVTIMEO => { ctx with recvTimeout := v }
  | .SO_SNDTIMEO => { ctx with sendTimeout := v }

/-- `FdCtx::FdCtx`, for a descriptor that `isSocket` or is not one. -/
def Counts.FdCtx.new (isSocket : Bool) : FdCtx where
  isClose := false
  isSocket := isSocket
  recvTimeout := -1
  sendTimeout := -1

/-- Its fields are a `long`, of 32 bits. -/
structure Timeval where
  tv_sec : Int32
  tv_usec : Int32

/-- What `setRecvTimeout` and `setSendTimeout` hand on. -/
def timeval (v : Int64) : Timeval where
  tv_sec := v.toInt32 / 1000
  tv_usec := (v % 1000 * 1000).toInt32

/-- What `s_setsockopt` stores of it. -/
def Timeval.milliseconds (tv : Timeval) : UInt64 :=
  (tv.tv_sec * 1000 + tv.tv_usec / 1000).toInt64.toUInt64

/-- What the `FdCtx` has after `setRecvTimeout(v)`. -/
def stored (v : Int64) : UInt64 :=
  (timeval v).milliseconds

/-- The milliseconds that an `int` can hold. -/
def Fits (v : Int64) : Prop :=
  -2 ^ 31 ≤ v.toInt ∧ v.toInt < 2 ^ 31

instance (v : Int64) : Decidable (Fits v) :=
  inferInstanceAs (Decidable (_ ∧ _))

variable {v : Int64} {ctx : FdCtx} {type : SockOpt}

@[simp] theorem getTimeout_setTimeout (value : UInt64) (other : SockOpt) :
    (ctx.setTimeout type value).getTimeout other =
      if other = type then value else ctx.getTimeout other := by
  cases type <;> cases other <;> rfl

@[simp] theorem getTimeout_new (isSocket : Bool) :
    (FdCtx.new isSocket).getTimeout type = -1 := by
  cases type <;> rfl

theorem tv_sec_toInt (v : Int64) :
    (timeval v).tv_sec.toInt = (v.toInt.bmod (2 ^ 32)).tdiv 1000 := by
  unfold timeval
  rw [Int32.toInt_div_of_ne_right _ _ (by decide), Int64.toInt_toInt32]
  rfl

theorem tmod_bounds (v : Int) : -1000 < v.tmod 1000 ∧ v.tmod 1000 < 1000 :=
  ⟨Int.lt_tmod_of_pos v (by decide), Int.tmod_lt_of_pos v (by decide)⟩

theorem tv_usec_toInt (v : Int64) :
    (timeval v).tv_usec.toInt = v.toInt.tmod 1000 * 1000 := by
  have bounds := tmod_bounds v.toInt
  have value : (v % 1000 * 1000 : Int64).toInt = v.toInt.tmod 1000 * 1000 := by
    rw [Int64.toInt_mul, Int64.toInt_mod]
    change (v.toInt.tmod 1000 * 1000).bmod (2 ^ 64) = _
    rw [Int.bmod_def]
    omega
  unfold timeval
  rw [Int64.toInt_toInt32, value, Int.bmod_def]
  omega

/-- It is an `int`, sign-extended. -/
theorem stored_toInt (v : Int64) :
    (stored v).toInt64.toInt =
      ((v.toInt.bmod (2 ^ 32)).tdiv 1000 * 1000 + v.toInt.tmod 1000).bmod
        (2 ^ 32) := by
  have micro : ((timeval v).tv_usec / 1000).toInt = v.toInt.tmod 1000 := by
    rw [Int32.toInt_div_of_ne_right _ _ (by decide), tv_usec_toInt]
    exact Int.mul_tdiv_cancel _ (by decide)
  unfold stored Timeval.milliseconds
  rw [Int64.toInt64_toUInt64, Int32.toInt_toInt64, Int32.toInt_add,
    Int32.toInt_mul, tv_sec_toInt, micro]
  change (((v.toInt.bmod (2 ^ 32)).tdiv 1000 * 1000).bmod (2 ^ 32) +
    v.toInt.tmod 1000).bmod (2 ^ 32) = _
  exact Int.bmod_add_bmod

theorem stored_of_fits (fits : Fits v) : (stored v).toInt64 = v := by
  apply Int64.toInt_inj.mp
  obtain ⟨low, high⟩ := fits
  have whole : v.toInt.bmod (2 ^ 32) = v.toInt := by
    rw [Int.bmod_def]
    omega
  rw [stored_toInt, whole, Int.tdiv_mul_add_tmod, whole]

/-- A timeout is read back as it was set if and only if it fits in an `int`. -/
theorem stored_eq_iff (v : Int64) : (stored v).toInt64 = v ↔ Fits v := by
  constructor
  · intro same
    have value := stored_toInt v
    rw [same] at value
    constructor
    · rw [value]
      exact Int.le_bmod (by decide)
    · rw [value]
      exact Int.bmod_lt (by decide)
  · exact stored_of_fits

end Sylar.Socket
