import Sylar.Buffer.Invariant

namespace Sylar

open Logic Data

namespace ByteArray

/-! One specification for each primitive operation. Callers use these and
never the loops. -/

/-- The array with `source` stored at its position, after it was grown to hold
`room` bytes from there on. -/
structure Written (ba : ByteArray) (source : Bytes) (room : Nat)
    (after : ByteArray) : Prop where
  inv : after.Inv
  baseSize : after.baseSize = ba.baseSize
  endian : after.endian = ba.endian
  position : after.position = ba.position + source.length
  size : after.size = max ba.size (ba.position + source.length)
  capacity : after.capacity =
    max ba.capacity (roundUp ba.baseSize (ba.position + room))
  memory : ∃ extra,
    ba.position + source.length ≤ (memory ba.root ++ extra).length ∧
      memory after.root = blit (memory ba.root ++ extra) ba.position source

private theorem writeLoop_written {ba : ByteArray} (inv : ba.Inv)
    {source : Bytes} (nonempty : 0 < source.length)
    (room : ba.position + source.length ≤ ba.capacity) :
    ∃ nodes,
      writeLoop ba.nodesFrom (ba.position % ba.baseSize) source =
        some (nodes, (ba.position % ba.baseSize + source.length) / ba.baseSize) ∧
      Uniform ba.baseSize (ba.nodesBefore ++ nodes) ∧
      (ba.nodesBefore ++ nodes).length = ba.root.length ∧
      memory (ba.nodesBefore ++ nodes) =
        blit (memory ba.root) ba.position source := by
  have length := inv.from_length
  obtain ⟨nodes, result, uniform, count, stored⟩ :=
    writeLoop_spec (inv.uniform.drop (ba.position / ba.baseSize))
      (Nat.mod_lt ba.position inv.base_pos) nonempty (by omega)
  rw [inv.nodesFrom_eq, inv.nodesBefore_eq]
  refine ⟨nodes, result, (inv.uniform.take _).append uniform, ?_, ?_⟩
  · rw [List.length_append, count, ← List.length_append,
      List.take_append_drop]
  · have start : (memory (ba.root.take (ba.position / ba.baseSize))).length =
        ba.baseSize * (ba.position / ba.baseSize) := by
      rw [inv.uniform.memory_take, List.length_take, inv.memory_length]
      have := Nat.div_add_mod ba.position ba.baseSize
      omega
    rw [memory_append, stored, ← blit_append_right, start, Nat.div_add_mod,
      ← memory_append, List.take_append_drop]

theorem write_spec {ba : ByteArray} (inv : ba.Inv) (source : Bytes) :
    ∃ after, write source ba = .done () after ∧
      ba.Written source source.length after := by
  have bound := inv.position_le
  unfold write
  split
  · rename_i empty
    have within : ba.position + source.length ≤ ba.capacity := by
      have := inv.size_le
      omega
    have grown := grown_self inv within
    refine ⟨ba, rfl, {
      inv := inv
      baseSize := rfl
      endian := rfl
      position := by omega
      size := by omega
      capacity := grown.capacity
      memory := ⟨[], ?_, ?_⟩ }⟩
    · have := inv.size_le
      rw [List.append_nil, inv.memory_length]
      omega
    · rw [List.eq_nil_of_length_eq_zero empty, blit_empty, List.append_nil]
  · rename_i nonempty
    have grown := addCapacity_grown inv source.length
    have room := grown.room inv
    have position := grown.position
    have baseSize := grown.baseSize
    obtain ⟨nodes, result, uniform, count, stored⟩ :=
      writeLoop_written grown.inv (Nat.pos_of_ne_zero nonempty) (by omega)
    simp only [result]
    refine ⟨_, rfl, {
      inv := ?_
      baseSize := grown.baseSize
      endian := grown.endian
      position := by rw [grown.position]
      size := ?_
      capacity := grown.capacity
      memory := ?_ }⟩
    · have sizeBound := grown.inv.size_le
      refine .of_cursor grown.inv.base_pos ?_ ?_ ?_ uniform ?_ ?_
      · rw [← List.length_pos_iff, count, List.length_pos_iff]
        exact grown.inv.root_present
      · simp only
        split <;> omega
      · simp only
        split <;> omega
      · simp only [count]
        exact grown.inv.capacity_eq
      · simp only
        rw [grown.inv.advance_eq (by omega)]
        simp only [nodeAt, count]
    · simp only
      rw [grown.size, grown.position]
      split <;> omega
    · obtain ⟨extra, extended⟩ := grown.memory
      refine ⟨extra, ?_, ?_⟩
      · rw [← extended, grown.inv.memory_length]
        exact room
      · rw [← extended, ← grown.position]
        exact stored

/-- `m_cur` is usable: `read` follows no null pointer exactly then. -/
theorem read_spec {ba : ByteArray} (inv : ba.Inv) {count : Nat}
    (enough : count ≤ ba.getReadSize) (inside : ba.position < ba.capacity) :
    read count ba =
      .done (((memory ba.root).drop ba.position).take count)
        (ba.moveTo (ba.position + count)) := by
  have sizes : ba.position + count ≤ ba.size := by
    have := inv.position_le
    unfold getReadSize at enough
    omega
  have fits : ba.position % ba.baseSize + count ≤ ba.baseSize *
      (ba.root.drop (ba.position / ba.baseSize)).length := by
    have := inv.from_length
    have := inv.size_le
    omega
  unfold read
  rw [if_neg (by omega), inv.nodesFrom_eq,
    readLoop_spec (inv.uniform.drop _) (Nat.mod_lt _ inv.base_pos)
      (inv.from_present inside) fits, inv.from_memory]
  simp only
  rw [inv.advance_eq inside]
  simp only [moveTo]
  rw [if_neg (by omega)]

/-- A read from a null `m_cur` faults, also one of no bytes. -/
theorem read_null {ba : ByteArray} (inv : ba.Inv)
    (ended : ba.position = ba.capacity) : read 0 ba = .fault := by
  unfold read
  rw [if_neg (by omega), nodesFrom, inv.cur_null.mpr ended]
  rfl

theorem read_short (ba : ByteArray) {count : Nat}
    (short : ba.getReadSize < count) :
    ∃ error, read count ba = .raise error ba := by
  unfold read
  rw [if_pos short]
  exact ⟨_, rfl⟩

theorem setPosition_spec {ba : ByteArray} (inv : ba.Inv) {v : Nat}
    (bound : v ≤ ba.capacity) :
    setPosition v ba = .done () (ba.moveTo v) := by
  unfold setPosition
  rw [if_neg (by omega),
    seekLoop_spec inv.uniform inv.base_pos inv.root_present
      (by rw [← inv.capacity_eq]; exact bound)]
  rfl

theorem toString_spec {ba : ByteArray} (inv : ba.Inv) :
    toString ba =
      .done (((memory ba.root).drop ba.position).take (ba.size - ba.position))
        ba := by
  have order := inv.position_le
  unfold toString getReadSize
  split
  · rename_i empty
    rw [empty, List.take_zero]
  · rename_i nonempty
    have inside : ba.position < ba.capacity := by
      have := inv.size_le
      omega
    have fits : ba.position % ba.baseSize + (ba.size - ba.position) ≤
        ba.baseSize *
          (ba.root.drop (ba.position / ba.baseSize)).length := by
      have := inv.from_length
      have := inv.size_le
      omega
    unfold readAt
    rw [subSize_of_le order, if_neg (by omega), inv.nodesFrom_eq,
      readLoop_spec (inv.uniform.drop _) (Nat.mod_lt _ inv.base_pos)
        (inv.from_present inside) fits, inv.from_memory]

structure Cleared (ba after : ByteArray) : Prop where
  inv : after.Inv
  position : after.position = 0
  size : after.size = 0
  baseSize : after.baseSize = ba.baseSize
  memory : memory after.root = (memory ba.root).take ba.baseSize

theorem clear_spec {ba : ByteArray} (inv : ba.Inv) :
    ∃ after, clear ba = .done () after ∧ ba.Cleared after := by
  have present := inv.root_present
  have count : (ba.root.take 1).length = 1 := by
    rw [List.length_take]
    have := List.length_pos_iff.mpr present
    omega
  refine ⟨_, rfl, {
    inv := ?_
    position := rfl
    size := rfl
    baseSize := rfl
    memory := ?_ }⟩
  · refine .of_cursor inv.base_pos (by simp [present]) (Nat.le_refl 0) (Nat.zero_le _)
      (inv.uniform.take 1) ?_ ?_
    · simp only [count, Nat.mul_one]
    · simp [nodeAt, present]
  · rw [inv.uniform.memory_take, Nat.mul_one]

end ByteArray

end Sylar
