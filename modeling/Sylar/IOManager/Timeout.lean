import Mathlib.Algebra.Group.Nat.Defs
import Sylar.IOManager.Idle
import Sylar.Timers.Model

namespace Sylar.IOManager

open Data Timers

/-! The waits of one pass through `idle`, from the timers it finds. -/

variable {T C : Type} [LinearOrder T]

/-- `next_timeout` in a round of the inner loop, which a failed completion
repeats. -/
def nextTimeout (timers : TimerManager T C) (now : UInt64) : Nat → UInt64
  | 0 => clamp (timers.getNextTimer now).1
  | round + 1 => clamp (nextTimeout timers now round)

/-- What `GetQueuedCompletionStatus` receives, a `DWORD`. -/
def timeout (timers : TimerManager T C) (now : UInt64) (round : Nat) : UInt32 :=
  (nextTimeout timers now round).toUInt32

def timeLeft (timers : TimerManager T C) (now : UInt64) (it : T) : Nat :=
  (timers.timer it).next.toNat - now.toNat

/-- No wait is longer than `MAX_TIMEOUT`, `INFINITE` included, or goes past a
deadline. -/
def NeverOversleeps (timers : TimerManager T C) (now : UInt64) : Prop :=
  ∀ round, (timeout timers now round).toNat ≤ MAX_TIMEOUT.toNat ∧
    ∀ it ∈ timers.timers,
      (timeout timers now round).toNat ≤ timeLeft timers now it

/-- The time left until the earliest deadline is not taken for a negative
`int`, or it is taken for no timer at all. -/
def Positive (timers : TimerManager T C) (now : UInt64) : Prop :=
  ∀ it ∈ timers.timers.head?,
    timeLeft timers now it % 2 ^ 32 < 2 ^ 31 ∨
      timeLeft timers now it = UInt64.size - 1

theorem toInt32_gt_iff (word : UInt32) :
    word.toInt32 > 3000 ↔ 3000 < word.toNat ∧ word.toNat < 2 ^ 31 := by
  have value : word.toInt32.toInt = (word.toNat : Int).bmod (2 ^ 32) := by
    rw [← Int32.toInt_toBitVec, UInt32.toBitVec_toInt32,
      BitVec.toInt_eq_toNat_bmod]
    rfl
  have bound : (3000 : Int32).toInt = 3000 := by decide
  have small := word.toNat_lt
  rw [gt_iff_lt, Int32.lt_iff_toInt_lt, value, bound, Int.bmod_def]
  omega

/-- The low 32 bits pass unless they are above the cap as an `int`. -/
theorem clamp_toUInt32 (next_timeout : UInt64) :
    (clamp next_timeout).toUInt32.toNat =
      if next_timeout.toNat = UInt64.size - 1 then 3000
      else if 3000 < next_timeout.toNat % 2 ^ 32 ∧
          next_timeout.toNat % 2 ^ 32 < 2 ^ 31 then 3000
      else next_timeout.toNat % 2 ^ 32 := by
  have low : next_timeout.toUInt32.toNat = next_timeout.toNat % 2 ^ 32 :=
    UInt64.toNat_toUInt32 _
  unfold clamp
  by_cases none_left : next_timeout = ~~~0
  · rw [none_left]
    rfl
  · have timer : next_timeout.toNat ≠ UInt64.size - 1 :=
      fun same => none_left (UInt64.toNat_inj.mp same)
    rw [if_pos none_left, if_neg timer]
    simp only [toInt32_gt_iff, low]
    split
    · rfl
    · exact low

omit [LinearOrder T] in
theorem nextTimeout_eq (timers : TimerManager T C) (now : UInt64) (round : Nat) :
    nextTimeout timers now round = clamp (timers.getNextTimer now).1 := by
  induction round with
  | zero => rfl
  | succ round ih => rw [nextTimeout, ih, Idle.clamp_clamp]

theorem timeLeft_mono {timers : TimerManager T C} {first : T} {rest : List T}
    (sorted : OrderedSet.Sorted (key timers.timer) (first :: rest))
    (now : UInt64) :
    ∀ it ∈ first :: rest, timeLeft timers now first ≤ timeLeft timers now it := by
  intro it member
  rcases List.mem_cons.mp member with rfl | later
  · exact Nat.le_refl _
  · have before := (List.pairwise_cons.mp sorted).1 it later
    have deadlines : (timers.timer first).next.toNat ≤
        (timers.timer it).next.toNat := by
      rcases Prod.Lex.toLex_lt_toLex.mp before with less | ⟨same, -⟩
      · exact less.le
      · exact same.le
    exact Nat.sub_le_sub_right deadlines _

omit [LinearOrder T] in
theorem getNextTimer_cons {timers : TimerManager T C} {first : T} {rest : List T}
    (timers_eq : timers.timers = first :: rest) (now : UInt64) :
    (timers.getNextTimer now).1.toNat = timeLeft timers now first := by
  unfold TimerManager.getNextTimer timeLeft
  rw [timers_eq]
  simp only
  split
  · rename_i due
    rw [UInt64.le_iff_toNat_le] at due
    simp [Nat.sub_eq_zero_of_le due]
  · rename_i ahead
    rw [UInt64.le_iff_toNat_le] at ahead
    exact UInt64.toNat_sub_of_le _ _ (UInt64.le_iff_toNat_le.mpr (by omega))

/-- The earliest timer bounds the waits for all of them. -/
theorem never_oversleeps_cons {timers : TimerManager T C} {first : T}
    {rest : List T}
    (sorted : OrderedSet.Sorted (key timers.timer) timers.timers)
    (timers_eq : timers.timers = first :: rest) (now : UInt64) :
    NeverOversleeps timers now ↔
      (clamp (timers.getNextTimer now).1).toUInt32.toNat ≤ 3000 ∧
        (clamp (timers.getNextTimer now).1).toUInt32.toNat ≤
          timeLeft timers now first := by
  unfold NeverOversleeps timeout
  simp only [nextTimeout_eq]
  rw [timers_eq] at sorted ⊢
  constructor
  · intro waits
    exact ⟨(waits 0).1, (waits 0).2 first List.mem_cons_self⟩
  · rintro ⟨capped, early⟩ round
    exact ⟨capped, fun it member =>
      early.trans (timeLeft_mono sorted now it member)⟩

theorem never_oversleeps_iff {timers : TimerManager T C}
    (sorted : OrderedSet.Sorted (key timers.timer) timers.timers)
    (now : UInt64) :
    NeverOversleeps timers now ↔ Positive timers now := by
  cases timers_eq : timers.timers with
  | nil =>
      have none_left : (timers.getNextTimer now).1 = ~~~0 := by
        rw [TimerManager.getNextTimer, timers_eq]
        rfl
      have capped : (clamp (~~~0)).toUInt32.toNat ≤ MAX_TIMEOUT.toNat := by
        decide
      unfold NeverOversleeps Positive timeout
      simp only [nextTimeout_eq, none_left, timers_eq]
      exact iff_of_true (fun _ => ⟨capped, nofun⟩) nofun
  | cons first rest =>
      have left := getNextTimer_cons timers_eq now
      have small : timeLeft timers now first < UInt64.size :=
        left ▸ (timers.getNextTimer now).1.toNat_lt
      have positive : Positive timers now ↔
          timeLeft timers now first % 2 ^ 32 < 2 ^ 31 ∨
            timeLeft timers now first = UInt64.size - 1 := by
        simp [Positive, timers_eq]
      rw [never_oversleeps_cons sorted timers_eq, positive, clamp_toUInt32, left]
      simp only [UInt64.size] at small ⊢
      split
      · omega
      · split <;> omega

/-- One timer with the deadline. -/
def single (next : UInt64) : TimerManager ℕ Unit where
  timer := fun _ => ⟨false, 0, next, some ()⟩
  constructed := fun it => it == 0
  timers := [0]
  tickled := false
  previouseTime := 0

theorem never_oversleeps_single : NeverOversleeps (single 5100) 100 := by
  have sorted : OrderedSet.Sorted (key (single 5100).timer)
      (single 5100).timers := List.pairwise_singleton _ _
  refine (never_oversleeps_iff sorted 100).mpr ?_
  intro it first
  cases first
  left
  decide

/-- A timer due in 2^31 milliseconds is waited for in one go, and one due in
2^32 - 1 without end. -/
theorem oversleeps :
    timeout (single 2147483748) 100 0 = 2147483648 ∧
      timeout (single 4294967395) 100 0 = INFINITE ∧
      ¬NeverOversleeps (single 2147483748) 100 ∧
      ¬NeverOversleeps (single 4294967395) 100 := by
  refine ⟨by decide, by decide, ?_, ?_⟩
  · intro waits
    exact absurd (waits 0).1 (by decide)
  · intro waits
    exact absurd (waits 0).1 (by decide)

end Sylar.IOManager
