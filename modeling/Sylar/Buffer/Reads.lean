import Sylar.Buffer.Reachable

namespace Sylar

open Logic Data

/-! When `read` and its positional overload return the bytes they are asked
for. -/

/-- A walk that runs out of nodes dereferences the null `next` of the last. -/
theorem readLoop_beyond {base npos count : Nat} {nodes : List Node}
    (uniform : Uniform base nodes) (inside : npos < base) (positive : 0 < count)
    (beyond : base * nodes.length < npos + count) :
    readLoop nodes npos count = none := by
  induction nodes generalizing npos count with
  | nil => rfl
  | cons node rest ih =>
      have size : node.size = base := uniform.head
      rw [List.length_cons, Nat.mul_succ] at beyond
      simp only [readLoop, size]
      rw [if_neg (by omega), if_neg (by omega),
        ih uniform.tail (by omega) (by omega) (by omega)]
      rfl

namespace ByteArray

/-- The bytes `[start, start + count)`. -/
def window (ba : ByteArray) (start count : Nat) : Bytes :=
  ((memory ba.root).drop start).take count

theorem window_zero (ba : ByteArray) (start : Nat) : ba.window start 0 = [] :=
  List.take_zero

theorem Inv.window_length {ba : ByteArray} (inv : ba.Inv) {start count : Nat}
    (fits : start + count ≤ ba.capacity) :
    (ba.window start count).length = count := by
  rw [window, List.length_take, List.length_drop, inv.memory_length]
  omega

/-- `read` returns the bytes from the position on, or throws when there are too
few. -/
def Reads (ba : ByteArray) (count : Nat) : Prop :=
  (count ≤ ba.getReadSize → ∃ after,
    read count ba = .done (ba.window ba.position count) after ∧
      after.position = ba.position + count) ∧
  (ba.getReadSize < count → ∃ what,
    read count ba = .raise (.outOfRange what) ba)

/-- `read` does what it should, except that the empty read needs a node to stand
in. -/
theorem read_total_iff {host : Host} {ba : ByteArray}
    (reachable : Reachable host ba) (count : Nat) :
    ba.Reads count ↔ (count = 0 → ba.position < ba.capacity) := by
  have inv := reachable_inv reachable
  have order := inv.position_le
  have within := inv.size_le
  constructor
  · rintro ⟨enough, -⟩ rfl
    by_contra outside
    obtain ⟨after, result, -⟩ := enough (Nat.zero_le _)
    rw [read_null inv (by omega)] at result
    cases result
  · intro present
    refine ⟨?_, ?_⟩
    · intro enough
      have inside : ba.position < ba.capacity := by
        rcases Nat.eq_zero_or_pos count with empty | positive
        · exact present empty
        · unfold getReadSize at enough
          omega
      exact ⟨_, read_spec inv enough inside, rfl⟩
    · intro short
      unfold read
      rw [if_pos short]
      exact ⟨_, rfl⟩

/-- An empty string with its length, in an array of one node that it fills. -/
theorem read_total_string :
    ∃ ba : ByteArray, ba.position = 0 ∧ ba.size = 4 ∧ ba.Reads 4 := by
  have started : Reachable ⟨.little, .little⟩ (new .little (fun _ => 0) 4) :=
    .start _ (.new (fun _ => 0) 4 (by decide))
  obtain ⟨ba, ran, position, size⟩ : ∃ ba : ByteArray,
      exec (fun ba op => Op.after ⟨.little, .little⟩ ba op)
        (new .little (fun _ => 0) 4) [.writeStringF32 [], .setPosition 0] =
          some ba ∧
      ba.position = 0 ∧ ba.size = 4 := by
    simp only [exec, Op.after]
    exact ⟨_, rfl, rfl, rfl⟩
  exact ⟨ba, position, size,
    (read_total_iff (reach_exec started ran) 4).mpr (by simp)⟩

/-- Once the length is read, the read of its no bytes follows a null `m_cur`. -/
theorem read_empty_null :
    ∃ ba after : ByteArray, Reachable ⟨.little, .little⟩ ba ∧
      readStringF32 ⟨.little, .little⟩ ba = .fault ∧
      readFuint32 ⟨.little, .little⟩ ba = .done 0 after ∧
      0 ≤ after.getReadSize ∧ read 0 after = .fault := by
  have started : Reachable ⟨.little, .little⟩ (new .little (fun _ => 0) 4) :=
    .start _ (.new (fun _ => 0) 4 (by decide))
  obtain ⟨ba, ran, rest⟩ : ∃ ba : ByteArray,
      exec (fun ba op => Op.after ⟨.little, .little⟩ ba op)
        (new .little (fun _ => 0) 4) [.writeStringF32 [], .setPosition 0] =
          some ba ∧
      ∃ after : ByteArray,
        readStringF32 ⟨.little, .little⟩ ba = .fault ∧
        readFuint32 ⟨.little, .little⟩ ba = .done 0 after ∧
        0 ≤ after.getReadSize ∧ read 0 after = .fault := by
    simp only [exec, Op.after]
    exact ⟨_, rfl, _, rfl, rfl, Nat.zero_le _, rfl⟩
  obtain ⟨after, string, length, enough, empty⟩ := rest
  exact ⟨ba, after, reach_exec started ran, string, length, enough, empty⟩

/-! The positional overload takes the offset in the node from the position it is
given, and the node from the cursor. -/

/-- Where it reads from. -/
def readStart (ba : ByteArray) (position : Nat) : Nat :=
  ba.baseSize * (ba.position / ba.baseSize) + position % ba.baseSize

theorem readStart_of_same {ba : ByteArray} {position : Nat}
    (same : position / ba.baseSize = ba.position / ba.baseSize) :
    ba.readStart position = position := by
  rw [readStart, ← same, Nat.div_add_mod]

theorem readAt_null {ba : ByteArray} (inv : ba.Inv) {size position : Nat}
    (enough : position + size ≤ ba.size) (ended : ba.position = ba.capacity) :
    readAt size position ba = .fault := by
  unfold readAt
  rw [subSize_of_le (by omega), if_neg (by omega), nodesFrom,
    inv.cur_null.mpr ended]
  rfl

theorem readAt_inside {ba : ByteArray} (inv : ba.Inv) {size position : Nat}
    (enough : position + size ≤ ba.size) (inside : ba.position < ba.capacity) :
    readAt size position ba =
      if size = 0 ∨ ba.readStart position + size ≤ ba.capacity then
        .done (ba.window (ba.readStart position) size) ba
      else .fault := by
  have offset := Nat.mod_lt position inv.base_pos
  have length := inv.from_length
  have split := Nat.div_add_mod ba.position ba.baseSize
  have moved : (memory (ba.root.drop (ba.position / ba.baseSize))).drop
      (position % ba.baseSize) = (memory ba.root).drop (ba.readStart position) := by
    rw [inv.uniform.memory_drop, List.drop_drop, readStart]
  unfold readAt
  rw [subSize_of_le (by omega), if_neg (by omega), inv.nodesFrom_eq]
  split_ifs with fits
  · have room : position % ba.baseSize + size ≤ ba.baseSize *
        (ba.root.drop (ba.position / ba.baseSize)).length := by
      have present := List.length_pos_iff.mpr (inv.from_present inside)
      have whole := Nat.mul_le_mul_left ba.baseSize present
      unfold readStart at fits
      omega
    rw [readLoop_spec (inv.uniform.drop _) offset (inv.from_present inside) room,
      moved]
    rfl
  · unfold readStart at fits
    rw [readLoop_beyond (inv.uniform.drop _) offset (by omega) (by omega)]

/-- The bytes at `position` are found again at the same place from the start of
the cursor's node. -/
def Recurs (ba : ByteArray) (size position : Nat) : Prop :=
  ba.readStart position + size ≤ ba.capacity ∧
    ba.window (ba.readStart position) size = ba.window position size

/-- The positional `read` throws for what is not below `m_size`, and returns the
rest. -/
def ReadsAt (ba : ByteArray) (size position : Nat) : Prop :=
  ((∃ what, readAt size position ba = .raise (.outOfRange what) ba) ↔
    ba.size < position + size) ∧
  (position + size ≤ ba.size →
    readAt size position ba = .done (ba.window position size) ba)

theorem readAt_inside_iff {ba : ByteArray} (inv : ba.Inv) {size position : Nat}
    (enough : position + size ≤ ba.size) :
    readAt size position ba = .done (ba.window position size) ba ↔
      ba.position < ba.capacity ∧
        (size = 0 ∨ position / ba.baseSize = ba.position / ba.baseSize ∨
          ba.Recurs size position) := by
  have within := inv.size_le
  by_cases inside : ba.position < ba.capacity
  · rw [readAt_inside inv enough inside]
    constructor
    · intro result
      refine ⟨inside, ?_⟩
      split_ifs at result with fits
      rcases fits with empty | fits
      · exact .inl empty
      · exact .inr (.inr ⟨fits, (Outcome.done.inj result).1⟩)
    · rintro ⟨-, empty | same | recurs⟩
      · subst empty
        rw [if_pos (.inl rfl), window_zero, window_zero]
      · rw [readStart_of_same same, if_pos (.inr (by omega))]
      · rw [if_pos (.inr recurs.1), recurs.2]
  · have ended : ba.position = ba.capacity := by
      have := inv.position_le_capacity
      omega
    rw [readAt_null inv enough ended]
    constructor
    · intro result
      cases result
    · exact fun ⟨inside, _⟩ => absurd inside (by omega)

theorem readAt_throws_iff (ba : ByteArray) (size position : Nat) :
    (∃ what, readAt size position ba = .raise (.outOfRange what) ba) ↔
      subSize ba.size position < size := by
  unfold readAt
  split
  · rename_i short
    exact ⟨fun _ => short, fun _ => ⟨_, rfl⟩⟩
  · rename_i enough
    constructor
    · rintro ⟨what, result⟩
      split at result <;> cases result
    · exact fun short => absurd short enough

/-- The positional `read` does what it should for a position up to `m_size`, or
one so far beyond that the unsigned difference is small again, when the cursor
is in the same node, or the bytes happen to recur in its node. -/
theorem readAt_iff {host : Host} {ba : ByteArray}
    (reachable : Reachable host ba) (size position : UInt64) :
    ba.ReadsAt size.toNat position.toNat ↔
      (position.toNat ≤ ba.size ∨
        2 ^ 64 + ba.size < position.toNat + size.toNat) ∧
      (position.toNat + size.toNat ≤ ba.size → ba.position < ba.capacity ∧
        (size.toNat = 0 ∨
          position.toNat / ba.baseSize = ba.position / ba.baseSize ∨
          ba.Recurs size.toNat position.toNat)) := by
  have inv := reachable_inv reachable
  have bound := position.toNat_lt
  refine and_congr ?_ ?_
  · rw [readAt_throws_iff]
    unfold subSize
    split <;> omega
  · exact forall_congr' fun enough => readAt_inside_iff inv enough

/-- A read in the node of the cursor, from before it. -/
theorem readAt_same_node :
    ∃ ba : ByteArray, ba.position = 3 ∧
      readAt 2 0 ba = .done [5, 6] ba := by
  have started : Reachable ⟨.little, .little⟩ (new .little (fun _ => 0) 4) :=
    .start _ (.new (fun _ => 0) 4 (by decide))
  obtain ⟨ba, ran, position, size, base, capacity, bytes⟩ : ∃ ba : ByteArray,
      exec (fun ba op => Op.after ⟨.little, .little⟩ ba op)
        (new .little (fun _ => 0) 4) [.write [5, 6, 7]] = some ba ∧
      ba.position = 3 ∧ ba.size = 3 ∧ ba.baseSize = 4 ∧ ba.capacity = 4 ∧
      ba.window 0 2 = [5, 6] := by
    simp only [exec, Op.after]
    exact ⟨_, rfl, rfl, rfl, rfl, rfl, rfl⟩
  have reads := (readAt_iff (reach_exec started ran) 2 0).mpr
    ⟨.inl (Nat.zero_le _), fun _ => ⟨by omega, .inr (.inl (by
      rw [base, position]
      rfl))⟩⟩
  have result := reads.2 (by rw [size]; decide)
  exact ⟨ba, position, result.trans (by
    rw [show ba.window (0 : UInt64).toNat (2 : UInt64).toNat = _ from bytes])⟩

/-- With the cursor in the second node, the bytes of the second node are returned
for the first; at the end of the last there are none; and a position beyond
`m_size` does not throw. -/
theorem readAt_wrong_node :
    (∃ ba : ByteArray, Reachable ⟨.little, .little⟩ ba ∧
      ba.window 0 2 = [1, 2] ∧ readAt 2 0 ba = .done [3, 0] ba) ∧
    (∃ ba : ByteArray, Reachable ⟨.little, .little⟩ ba ∧
      ba.size = 2 ∧ readAt 2 0 ba = .fault) ∧
    ∃ ba : ByteArray, Reachable ⟨.little, .little⟩ ba ∧
      ba.size = 0 ∧ readAt 1 1 ba = .done [0] ba := by
  have started : Reachable ⟨.little, .little⟩ (new .little (fun _ => 0) 2) :=
    .start _ (.new (fun _ => 0) 2 (by decide))
  refine ⟨?_, ?_, _, started, rfl, rfl⟩
  · obtain ⟨ba, ran, rest⟩ : ∃ ba : ByteArray,
        exec (fun ba op => Op.after ⟨.little, .little⟩ ba op)
          (new .little (fun _ => 0) 2) [.write [1, 2, 3]] = some ba ∧
        ba.window 0 2 = [1, 2] ∧ readAt 2 0 ba = .done [3, 0] ba := by
      simp only [exec, Op.after]
      exact ⟨_, rfl, rfl, rfl⟩
    exact ⟨ba, reach_exec started ran, rest⟩
  · obtain ⟨ba, ran, rest⟩ : ∃ ba : ByteArray,
        exec (fun ba op => Op.after ⟨.little, .little⟩ ba op)
          (new .little (fun _ => 0) 2) [.write [1, 2]] = some ba ∧
        ba.size = 2 ∧ readAt 2 0 ba = .fault := by
      simp only [exec, Op.after]
      exact ⟨_, rfl, rfl, rfl⟩
    exact ⟨ba, reach_exec started ran, rest⟩

end ByteArray

end Sylar
