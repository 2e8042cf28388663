import Sylar.Buffer.Walk

namespace Sylar

open Logic Data

structure ByteArray.Inv (ba : ByteArray) : Prop where
  base_pos : 0 < ba.baseSize
  root_present : ba.root ≠ []
  position_le : ba.position ≤ ba.size
  size_le : ba.size ≤ ba.capacity
  node_size : ∀ node ∈ ba.root, node.size = ba.baseSize
  capacity_eq : ba.capacity = ba.baseSize * ba.root.length
  cur_null : ba.cur = none ↔ ba.position = ba.capacity
  cur_index : ∀ index, ba.cur = some index →
    index < ba.root.length ∧ index = ba.position / ba.baseSize

namespace ByteArray

/-- `m_cur` where the walk from `m_root` to `v` ends. -/
def moveTo (ba : ByteArray) (v : Nat) : ByteArray :=
  { ba with
    position := v
    size := if ba.size < v then v else ba.size
    cur := ba.nodeAt (v / ba.baseSize) }

theorem nodeAt_null (ba : ByteArray) {index : Nat} :
    ba.nodeAt index = none ↔ ba.root.length ≤ index := by
  unfold nodeAt
  split <;> simp <;> omega

theorem nodeAt_some (ba : ByteArray) {index other : Nat} :
    ba.nodeAt index = some other ↔ index < ba.root.length ∧ other = index := by
  unfold nodeAt
  split <;> simp <;> omega

namespace Inv

variable {ba : ByteArray}

theorem uniform (inv : ba.Inv) : Uniform ba.baseSize ba.root := inv.node_size

theorem memory_length (inv : ba.Inv) :
    (memory ba.root).length = ba.capacity := by
  rw [inv.uniform.memory_length, inv.capacity_eq]

theorem position_le_capacity (inv : ba.Inv) : ba.position ≤ ba.capacity :=
  inv.position_le.trans inv.size_le

theorem cursor (inv : ba.Inv) :
    ba.cur = ba.nodeAt (ba.position / ba.baseSize) := by
  cases pointer : ba.cur with
  | none =>
      symm
      rw [nodeAt_null, inv.cur_null.mp pointer, inv.capacity_eq,
        Nat.mul_div_cancel_left _ inv.base_pos]
  | some index =>
      obtain ⟨bound, place⟩ := inv.cur_index index pointer
      symm
      rw [nodeAt_some]
      exact ⟨place ▸ bound, place⟩

/-- An array whose `m_cur` is the node its position falls in. -/
theorem of_cursor (base_pos : 0 < ba.baseSize) (root_present : ba.root ≠ [])
    (position_le : ba.position ≤ ba.size) (size_le : ba.size ≤ ba.capacity)
    (uniform : Uniform ba.baseSize ba.root)
    (capacity_eq : ba.capacity = ba.baseSize * ba.root.length)
    (cursor : ba.cur = ba.nodeAt (ba.position / ba.baseSize)) : ba.Inv where
  base_pos := base_pos
  root_present := root_present
  position_le := position_le
  size_le := size_le
  node_size := uniform
  capacity_eq := capacity_eq
  cur_null := by
    have within : ba.position ≤ ba.baseSize * ba.root.length := by omega
    rw [cursor, nodeAt_null, capacity_eq, Nat.le_div_iff_mul_le base_pos,
      Nat.mul_comm]
    omega
  cur_index := by
    intro index pointer
    rw [cursor, nodeAt_some] at pointer
    exact ⟨pointer.2 ▸ pointer.1, pointer.2⟩

theorem moveTo (inv : ba.Inv) {v : Nat} (bound : v ≤ ba.capacity) :
    (ba.moveTo v).Inv := by
  refine of_cursor inv.base_pos inv.root_present ?_ ?_ inv.uniform
    inv.capacity_eq rfl
  · simp only [ByteArray.moveTo]
    split <;> omega
  · have := inv.size_le
    simp only [ByteArray.moveTo]
    split <;> omega

/-! The nodes around `m_cur`. -/

theorem nodesFrom_eq (inv : ba.Inv) :
    ba.nodesFrom = ba.root.drop (ba.position / ba.baseSize) := by
  unfold nodesFrom
  cases pointer : ba.cur with
  | none =>
      have ended := inv.cur_null.mp pointer
      rw [List.drop_eq_nil_of_le]
      rw [ended, inv.capacity_eq, Nat.mul_div_cancel_left _ inv.base_pos]
  | some index => rw [(inv.cur_index index pointer).2]

theorem nodesBefore_eq (inv : ba.Inv) :
    ba.nodesBefore = ba.root.take (ba.position / ba.baseSize) := by
  unfold nodesBefore
  cases pointer : ba.cur with
  | none =>
      have ended := inv.cur_null.mp pointer
      rw [List.take_of_length_le]
      rw [ended, inv.capacity_eq, Nat.mul_div_cancel_left _ inv.base_pos]
  | some index => rw [(inv.cur_index index pointer).2]

theorem advance_eq (inv : ba.Inv) (inside : ba.position < ba.capacity)
    (count : Nat) :
    ba.advance ((ba.position % ba.baseSize + count) / ba.baseSize) =
      ba.nodeAt ((ba.position + count) / ba.baseSize) := by
  have steps : ba.position / ba.baseSize +
      (ba.position % ba.baseSize + count) / ba.baseSize =
        (ba.position + count) / ba.baseSize := by
    rw [← Nat.mul_add_div inv.base_pos, ← Nat.add_assoc, Nat.div_add_mod]
  unfold advance
  cases pointer : ba.cur with
  | none =>
      have ended := inv.cur_null.mp pointer
      omega
  | some index =>
      simp only
      rw [(inv.cur_index index pointer).2, steps]

theorem from_length (inv : ba.Inv) :
    ba.position % ba.baseSize + (ba.capacity - ba.position) =
      ba.baseSize * (ba.root.drop (ba.position / ba.baseSize)).length := by
  have split := Nat.div_add_mod ba.position ba.baseSize
  have bound := inv.position_le_capacity
  rw [inv.capacity_eq] at bound ⊢
  have nodes : ba.position / ba.baseSize ≤ ba.root.length := by
    rw [Nat.div_le_iff_le_mul_add_pred inv.base_pos]
    omega
  rw [List.length_drop, Nat.mul_sub]
  have := Nat.mul_le_mul_left ba.baseSize nodes
  omega

theorem from_present (inv : ba.Inv) (inside : ba.position < ba.capacity) :
    ba.root.drop (ba.position / ba.baseSize) ≠ [] := by
  intro empty
  have length := inv.from_length
  rw [empty, List.length_nil, Nat.mul_zero] at length
  omega

theorem from_memory (inv : ba.Inv) :
    (memory (ba.root.drop (ba.position / ba.baseSize))).drop
        (ba.position % ba.baseSize) =
      (memory ba.root).drop ba.position := by
  rw [inv.uniform.memory_drop, List.drop_drop, Nat.div_add_mod]

end Inv

/-! Construction. -/

theorem inv_new (byteOrder : Endian) (heap : Nat → UInt8) {baseSize : Nat}
    (positive : 0 < baseSize) : (new byteOrder heap baseSize).Inv := by
  refine .of_cursor positive (by simp [new]) (Nat.le_refl 0) (Nat.zero_le _)
    ?_ ?_ ?_
  · exact .cons rfl (by intro node member; cases member)
  · simp [new]
  · simp [new, nodeAt]

theorem inv_ofData (byteOrder : Endian) (heap : Nat → UInt8) {data : Bytes}
    (positive : 0 < data.length) : (ofData byteOrder heap data).Inv := by
  refine .of_cursor positive (by simp [ofData]) (Nat.zero_le _)
    (Nat.le_refl _) ?_ ?_ ?_
  · exact .cons rfl (by intro node member; cases member)
  · simp [ofData]
  · simp [ofData, nodeAt]

/-! Growth. -/

/-- The least multiple of `base` that is at least `count`. -/
def roundUp (base count : Nat) : Nat := base * ((count + base - 1) / base)

theorem le_roundUp {base : Nat} (positive : 0 < base) (count : Nat) :
    count ≤ roundUp base count := by
  have split := Nat.div_add_mod (count + base - 1) base
  have := Nat.mod_lt (count + base - 1) positive
  unfold roundUp
  omega

theorem roundUp_le {base count bound : Nat} (positive : 0 < base)
    (below : count ≤ base * bound) : roundUp base count ≤ base * bound := by
  refine Nat.mul_le_mul_left base ?_
  have : (count + base - 1) / base < bound + 1 := by
    rw [Nat.div_lt_iff_lt_mul positive, Nat.succ_mul, Nat.mul_comm]
    omega
  omega

/-- An array that grew for its bytes is full when they fill whole nodes. -/
theorem lt_grown_iff {base count : Nat} (positive : 0 < base) (some : 0 < count) :
    count < max base (roundUp base count) ↔ ¬base ∣ count := by
  have above := le_roundUp positive count
  constructor
  · rintro less ⟨nodes, rfl⟩
    have whole : roundUp base (base * nodes) ≤ base * nodes :=
      roundUp_le positive (Nat.le_refl _)
    have least := Nat.le_of_dvd some (Nat.dvd_mul_right base nodes)
    omega
  · intro partly
    have differs : count ≠ roundUp base count := by
      intro same
      exact partly (same ▸ Nat.dvd_mul_right base _)
    omega

theorem roundUp_add_mul {base count nodes : Nat} (positive : 0 < base) :
    roundUp base (base * nodes + count) = base * nodes + roundUp base count := by
  unfold roundUp
  rw [← Nat.mul_add, Nat.add_assoc, Nat.add_sub_assoc (by omega),
    Nat.mul_add_div positive]

theorem newNodes_uniform (ba : ByteArray) (count : Nat) :
    Uniform ba.baseSize (ba.newNodes count) := by
  intro node member
  obtain ⟨index, _, rfl⟩ := List.mem_map.mp member
  rfl

@[simp] theorem newNodes_length (ba : ByteArray) (count : Nat) :
    (ba.newNodes count).length = count := by
  simp [newNodes]

structure Grown (ba : ByteArray) (count : Nat) (after : ByteArray) : Prop where
  inv : after.Inv
  baseSize : after.baseSize = ba.baseSize
  position : after.position = ba.position
  size : after.size = ba.size
  endian : after.endian = ba.endian
  capacity : after.capacity =
    max ba.capacity (roundUp ba.baseSize (ba.position + count))
  memory : ∃ extra, memory after.root = memory ba.root ++ extra

theorem Grown.room {ba after : ByteArray} {count : Nat}
    (grown : ba.Grown count after) (inv : ba.Inv) :
    ba.position + count ≤ after.capacity := by
  rw [grown.capacity]
  exact (le_roundUp inv.base_pos _).trans (Nat.le_max_right _ _)

theorem grown_self {ba : ByteArray} (inv : ba.Inv) {count : Nat}
    (fits : ba.position + count ≤ ba.capacity) : ba.Grown count ba where
  inv := inv
  baseSize := rfl
  position := rfl
  size := rfl
  endian := rfl
  capacity := by
    rw [inv.capacity_eq] at fits ⊢
    exact (Nat.max_eq_left (roundUp_le inv.base_pos fits)).symm
  memory := ⟨[], by simp⟩

theorem addCapacity_grown {ba : ByteArray} (inv : ba.Inv) (count : Nat) :
    ba.Grown count (ba.addCapacity count) := by
  have within := inv.position_le_capacity
  unfold addCapacity
  split
  · exact grown_self inv (by omega)
  split
  · exact grown_self inv (by unfold getCapacity at *; omega)
  · rename_i _ missing
    unfold getCapacity at missing ⊢
    have short : ba.capacity < ba.position + count := by omega
    have lack : count - (ba.capacity - ba.position) =
        ba.position + count - ba.capacity := by omega
    rw [lack]
    generalize grow : (ba.position + count - ba.capacity + ba.baseSize - 1) /
      ba.baseSize = nodes
    -- The allocated nodes reach exactly to the rounded-up end of the write.
    have reach : ba.capacity + nodes * ba.baseSize =
        roundUp ba.baseSize (ba.position + count) := by
      have total : ba.position + count =
          ba.baseSize * ba.root.length +
            (ba.position + count - ba.capacity) := by
        rw [← inv.capacity_eq]
        omega
      rw [total, roundUp_add_mul inv.base_pos, roundUp, grow,
        ← inv.capacity_eq, Nat.mul_comm]
    have enough := le_roundUp inv.base_pos (ba.position + count)
    have someNodes : nodes ≠ 0 := by
      rintro rfl
      omega
    refine {
      inv := ?_
      baseSize := rfl
      position := rfl
      size := rfl
      endian := rfl
      capacity := ?_
      memory := ⟨_, memory_append _ _⟩ }
    · have bound := inv.size_le
      refine .of_cursor inv.base_pos (by simp [inv.root_present])
        inv.position_le ?_ (inv.uniform.append (ba.newNodes_uniform nodes)) ?_ ?_
      · simp only
        omega
      · simp only [List.length_append, newNodes_length]
        rw [inv.capacity_eq, Nat.mul_add, Nat.mul_comm nodes]
      · simp only [someNodes, if_false]
        split
        · rename_i full
          have ended : ba.position = ba.capacity := by omega
          symm
          rw [nodeAt_some]
          simp only [List.length_append, newNodes_length]
          rw [ended, inv.capacity_eq, Nat.mul_div_cancel_left _ inv.base_pos]
          omega
        · rename_i notFull
          have inside : ba.position < ba.capacity := by omega
          rw [inv.cursor]
          have place : ba.position / ba.baseSize < ba.root.length := by
            rw [Nat.div_lt_iff_lt_mul inv.base_pos, Nat.mul_comm,
              ← inv.capacity_eq]
            exact inside
          simp only [nodeAt, List.length_append, newNodes_length]
          rw [if_pos place, if_pos (by omega)]
    · simp only
      rw [reach]
      exact (Nat.max_eq_right (by omega)).symm

end ByteArray

end Sylar
