import Mathlib.Algebra.Group.Nat.Defs
import Mathlib.Algebra.Order.Group.Int
import Mathlib.Data.List.Basic

namespace Sylar.SSLSocket

/-! `send` and `recv` of a list of buffers. A call of `SSL_write` or `SSL_read` is
the `len` of its buffer and what it returns. -/

structure Call where
  len : UInt32
  tmp : Int32
  deriving DecidableEq, Repr

namespace Call

/-- The loop goes on. -/
def whole (call : Call) : Prop := 0 < call.tmp ∧ call.tmp = call.len.toInt32

instance (call : Call) : Decidable call.whole :=
  inferInstanceAs (Decidable (0 < call.tmp ∧ call.tmp = call.len.toInt32))

end Call

def transferLoop : Int32 → List Call → Int32
  | total, [] => total
  | total, call :: rest =>
      if call.tmp ≤ 0 then call.tmp
      else if call.tmp ≠ call.len.toInt32 then total + call.tmp
      else transferLoop (total + call.tmp) rest

/-- The body of both; `ssl` is whether `m_ssl` is set. The calls behind the one
that ends the loop are not made. -/
def transfer (ssl : Bool) (calls : List Call) : Int32 :=
  if !ssl then -1 else transferLoop 0 calls

def send (ssl : Bool) (buffers : List Call) : Int32 := transfer ssl buffers

def recv (ssl : Bool) (buffers : List Call) : Int32 := transfer ssl buffers

/-- The bytes that the calls that are made transfer. -/
def moved : List Call → Int
  | [] => 0
  | call :: rest =>
      if call.whole then call.tmp.toInt + moved rest else max call.tmp.toInt 0

def transferred (ssl : Bool) (calls : List Call) : Int :=
  if ssl then moved calls else 0

/-- The value is the number of bytes, if any were transferred. -/
def Counted (total : Int) (value : Int32) : Prop :=
  (0 < total → value.toInt = total) ∧ (value.toInt ≤ 0 → total = 0)

/-- A call fails behind one that transferred its whole buffer. -/
def FailsLate (calls : List Call) : Prop :=
  ∃ first before failed rest, calls = first :: (before ++ failed :: rest) ∧
    (∀ call ∈ first :: before, call.whole) ∧ failed.tmp ≤ 0

theorem transferLoop_whole {call : Call} (whole : call.whole) (total : Int32)
    (rest : List Call) :
    transferLoop total (call :: rest) = transferLoop (total + call.tmp) rest := by
  rw [transferLoop, if_neg (Int32.not_le.mpr whole.1), if_neg (not_not.mpr whole.2)]

theorem moved_whole {call : Call} (whole : call.whole) (rest : List Call) :
    moved (call :: rest) = call.tmp.toInt + moved rest := if_pos whole

theorem moved_nonneg (calls : List Call) : 0 ≤ moved calls := by
  induction calls with
  | nil => exact le_refl 0
  | cons call rest ih =>
      unfold moved
      split
      · rename_i whole
        have positive : 0 < call.tmp.toInt := Int32.lt_iff_toInt_lt.mp whole.1
        omega
      · exact le_max_right _ _

theorem positive_toInt {call : Call} (positive : 0 < call.tmp) :
    0 < call.tmp.toInt := Int32.lt_iff_toInt_lt.mp positive

/-- The loop ends with a failure, or has the sum modulo 2^32. -/
theorem transferLoop_spec (total : Int32) (calls : List Call) :
    (∃ before failed rest, calls = before ++ failed :: rest ∧
      (∀ call ∈ before, call.whole) ∧ failed.tmp ≤ 0 ∧
      transferLoop total calls = failed.tmp) ∨
    (transferLoop total calls).toInt =
      (total.toInt + moved calls).bmod (2 ^ 32) := by
  induction calls generalizing total with
  | nil =>
      right
      simp [transferLoop, moved]
  | cons call rest ih =>
      by_cases whole : call.whole
      · rw [transferLoop_whole whole, moved_whole whole]
        rcases ih (total + call.tmp) with ⟨before, failed, behind, rfl, all, stops⟩ | sum
        · exact .inl ⟨call :: before, failed, behind, rfl,
            List.forall_mem_cons.mpr ⟨whole, all⟩, stops⟩
        · right
          rw [sum, Int32.toInt_add, Int.bmod_add_bmod, Int.add_assoc]
      · by_cases failed : call.tmp ≤ 0
        · exact .inl ⟨[], call, rest, rfl, by simp, failed, if_pos failed⟩
        · right
          have positive := Int32.not_le.mp failed
          have partly : call.tmp ≠ call.len.toInt32 :=
            fun equal => whole ⟨positive, equal⟩
          have above := positive_toInt positive
          unfold transferLoop moved
          rw [if_neg failed, if_pos partly, if_neg whole, Int32.toInt_add,
            max_eq_left above.le]

theorem transferLoop_failed {before : List Call} {failed : Call}
    (all : ∀ call ∈ before, call.whole) (fails : failed.tmp ≤ 0) (total : Int32)
    (rest : List Call) :
    transferLoop total (before ++ failed :: rest) = failed.tmp := by
  induction before generalizing total with
  | nil => exact if_pos fails
  | cons call before ih =>
      obtain ⟨whole, all⟩ := List.forall_mem_cons.mp all
      rw [List.cons_append, transferLoop_whole whole]
      exact ih all _

theorem moved_failed {failed : Call} (fails : failed.tmp ≤ 0) (rest : List Call) :
    moved (failed :: rest) = 0 := by
  have below : failed.tmp.toInt ≤ 0 := Int32.le_iff_toInt_le.mp fails
  unfold moved
  rw [if_neg (fun whole => Int32.not_le.mpr whole.1 fails), max_eq_right below]

/-- Behind a whole buffer a failure hides what was transferred. -/
theorem FailsLate.not_counted {calls : List Call} (late : FailsLate calls) :
    ¬Counted (moved calls) (transferLoop 0 calls) := by
  obtain ⟨first, before, failed, rest, rfl, all, fails⟩ := late
  obtain ⟨whole, -⟩ := List.forall_mem_cons.mp all
  rw [← List.cons_append, transferLoop_failed all fails]
  rintro ⟨-, hidden⟩
  have none := hidden (Int32.le_iff_toInt_le.mp fails)
  have some := positive_toInt whole.1
  have more := moved_nonneg (before ++ failed :: rest)
  rw [List.cons_append, moved_whole whole] at none
  omega

theorem counted_loop_iff (calls : List Call) :
    Counted (moved calls) (transferLoop 0 calls) ↔
      ¬FailsLate calls ∧ moved calls < 2 ^ 31 := by
  constructor
  · intro counted
    refine ⟨fun late => late.not_counted counted, ?_⟩
    by_contra large
    have exact := counted.1 (by omega)
    have bound := (transferLoop 0 calls).toInt_lt
    omega
  · rintro ⟨early, fits⟩
    rcases transferLoop_spec 0 calls with
      ⟨before, failed, rest, rfl, all, fails, value⟩ | sum
    · cases before with
      | nil =>
          rw [List.nil_append, moved_failed fails]
          exact ⟨fun positive => absurd positive (lt_irrefl 0), fun _ => rfl⟩
      | cons first before =>
          exact absurd ⟨first, before, failed, rest, rfl, all, fails⟩ early
    · have nonneg := moved_nonneg calls
      rw [Int32.toInt_zero, Int.zero_add,
        Int.bmod_eq_of_le (by omega) (by omega)] at sum
      exact ⟨fun _ => sum, fun none => by omega⟩

/-- Both return the number of bytes when no call fails behind one that filled its
buffer, and the number is an `int`. -/
theorem counted_iff (ssl : Bool) (buffers : List Call) :
    Counted (transferred ssl buffers) (send ssl buffers) ∧
        Counted (transferred ssl buffers) (recv ssl buffers) ↔
      (ssl = true → ¬FailsLate buffers ∧ moved buffers < 2 ^ 31) := by
  rw [show recv ssl buffers = send ssl buffers from rfl, and_self_iff]
  cases ssl with
  | false =>
      refine iff_of_true ⟨fun positive => ?_, fun _ => rfl⟩ (by simp)
      exact absurd positive (lt_irrefl 0)
  | true =>
      rw [forall_prop_of_true rfl]
      exact counted_loop_iff buffers

/-- A partial transfer behind a whole buffer ends the calls. -/
theorem counted_partly :
    Counted (transferred true [⟨10, 10⟩, ⟨10, 3⟩, ⟨10, -1⟩])
        (send true [⟨10, 10⟩, ⟨10, 3⟩, ⟨10, -1⟩]) ∧
      Counted (transferred true [⟨10, 10⟩, ⟨10, 3⟩, ⟨10, -1⟩])
        (recv true [⟨10, 10⟩, ⟨10, 3⟩, ⟨10, -1⟩]) := by
  refine (counted_iff true _).mpr fun _ => ⟨?_, by decide⟩
  rintro ⟨first, before, failed, rest, same, all, fails⟩
  cases before with
  | nil =>
      cases same
      exact absurd fails (by decide)
  | cons second before =>
      have whole := all second (by simp)
      obtain ⟨rfl, -⟩ := List.cons.inj (List.cons.inj same).2
      exact absurd whole (by decide)

/-- An error behind a whole buffer is returned instead of its ten bytes. -/
theorem counted_hidden :
    transferred true [⟨10, 10⟩, ⟨10, -1⟩] = 10 ∧
      send true [⟨10, 10⟩, ⟨10, -1⟩] = -1 ∧
      recv true [⟨10, 10⟩, ⟨10, -1⟩] = -1 ∧
      ¬Counted (transferred true [⟨10, 10⟩, ⟨10, -1⟩])
        (recv true [⟨10, 10⟩, ⟨10, -1⟩]) := by
  refine ⟨by decide, by decide, by decide, fun counted => ?_⟩
  exact absurd (counted.1 (by decide)) (by decide)

end Sylar.SSLSocket
