import Sylar.Buffer.Spec

namespace Sylar

open Logic Data

/-! Transfers through the regions that `getReadBuffers` and `getWriteBuffers`
hand out. -/

/-- The bytes a send takes from the regions, in order. -/
def gather (nodes : List Node) (buffers : List WSABUF) : Bytes :=
  buffers.flatMap fun buffer =>
    match nodes[buffer.node]? with
    | none => []
    | some node => node.load buffer.offset buffer.len

/-- A receive of `bytes` into the regions, filled one after the other. -/
def scatter : List Node → List WSABUF → Bytes → List Node
  | nodes, [], _ => nodes
  | nodes, buffer :: buffers, bytes =>
      scatter
        (nodes.modify buffer.node fun node =>
          node.store buffer.offset (bytes.take buffer.len))
        buffers (bytes.drop buffer.len)

/-- The bytes an overlapped call is asked for. -/
def totalLen (buffers : List WSABUF) : Nat := (buffers.map WSABUF.len).sum

/-- The regions are the `len` bytes from address `start` on, without a gap,
in the memory of `count` nodes of size `base`. -/
inductive Regions (base count : Nat) : Nat → List WSABUF → Nat → Prop
  | nil (start : Nat) : Regions base count start [] 0
  | cons {start len : Nat} {buffer : WSABUF} {buffers : List WSABUF}
      (node : buffer.node < count)
      (address : base * buffer.node + buffer.offset = start)
      (inside : buffer.offset + buffer.len ≤ base)
      (rest : Regions base count (start + buffer.len) buffers len) :
      Regions base count start (buffer :: buffers) (buffer.len + len)

namespace Regions

variable {base count start len : Nat} {buffers : List WSABUF}

theorem totalLen_eq (regions : Regions base count start buffers len) :
    totalLen buffers = len := by
  induction regions with
  | nil => rfl
  | cons _ _ _ _ ih => rw [totalLen, List.map_cons, List.sum_cons, ← ih, totalLen]

theorem single {buffer : WSABUF} (node : buffer.node < count)
    (address : base * buffer.node + buffer.offset = start)
    (inside : buffer.offset + buffer.len ≤ base) :
    Regions base count start [buffer] buffer.len :=
  .cons node address inside (.nil _)

end Regions

/-- No node holds 2^32 of the bytes or more, so that the length of each region
fits its `ULONG`. -/
def Narrow (base npos len : Nat) : Prop :=
  min len (base - npos) < 2 ^ 32 ∧ min (len - (base - npos)) base < 2 ^ 32

theorem narrow_of_len {base npos len : Nat} (small : len < 2 ^ 32) :
    Narrow base npos len := by
  unfold Narrow
  omega

theorem narrow_of_base {base npos len : Nat} (small : base < 2 ^ 32) :
    Narrow base npos len := by
  unfold Narrow
  omega

theorem buffersLoop_spec {base : Nat} {nodes : List Node}
    (uniform : Uniform base nodes) {index npos len : Nat}
    (inside : npos < base) (positive : 0 < len) (narrow : Narrow base npos len)
    (fits : npos + len ≤ base * nodes.length) :
    ∃ buffers, buffersLoop nodes index npos len = some buffers ∧
      Regions base (index + nodes.length) (base * index + npos) buffers len ∧
      ∀ buffer ∈ buffers, 0 < buffer.len := by
  induction nodes generalizing index npos len with
  | nil =>
      rw [List.length_nil, Nat.mul_zero] at fits
      omega
  | cons node rest ih =>
      have size : node.size = base := uniform.head
      have here : index < index + (node :: rest).length := by
        rw [List.length_cons]
        omega
      obtain ⟨first, others⟩ := narrow
      simp only [buffersLoop, size]
      split
      · rename_i short
        refine ⟨_, rfl, ?_⟩
        rw [Nat.mod_eq_of_lt (by omega)]
        exact ⟨.single here rfl (by simp only; omega), by simpa using positive⟩
      · rename_i long
        rw [List.length_cons, Nat.mul_succ] at fits
        obtain ⟨buffers, result, regions, nonempty⟩ :=
          @ih uniform.tail (index + 1) 0 (len - (base - npos)) (by omega)
            (by omega) ⟨by omega, by omega⟩ (by omega)
        have whole : base - npos + (len - (base - npos)) = len := by omega
        have next : base * (index + 1) + 0 =
            base * index + npos + (base - npos) := by
          rw [Nat.mul_succ]
          omega
        rw [next, show index + 1 + rest.length =
          index + (node :: rest).length by rw [List.length_cons]; omega] at regions
        refine ⟨_, by rw [result]; rfl, ?_⟩
        rw [Nat.mod_eq_of_lt (show base - npos < 2 ^ 32 by omega)]
        have extended := @Regions.cons _ _ _ _ ⟨index, npos, base - npos⟩ _
          here rfl (by simp only; omega) regions
        refine ⟨by simpa only [whole] using extended, ?_⟩
        intro buffer member
        rcases List.mem_cons.mp member with rfl | later
        · exact Nat.sub_pos_of_lt inside
        · exact nonempty buffer later

theorem Uniform.memory_getElem {base : Nat} {nodes : List Node}
    (uniform : Uniform base nodes) {index : Nat} {node : Node}
    (found : nodes[index]? = some node) (offset len : Nat)
    (inside : offset + len ≤ base) :
    ((memory nodes).drop (base * index + offset)).take len =
      node.load offset len := by
  obtain ⟨before, after, rfl, rfl⟩ :
      ∃ before after, nodes = before ++ node :: after ∧
        index = before.length := by
    obtain ⟨bound, rfl⟩ := List.getElem?_eq_some_iff.mp found
    exact ⟨nodes.take index, nodes.drop (index + 1), by simp,
      by rw [List.length_take]; omega⟩
  have front : Uniform base before := fun other member => uniform other (by simp [member])
  have size : node.ptr.length = base := node.sized.trans (uniform node (by simp))
  rw [memory_append, memory_cons, ← front.memory_length,
    List.drop_length_add_append, List.drop_append_of_le_length (by omega),
    List.take_append_of_le_length (by rw [List.length_drop]; omega)]
  rfl

theorem Uniform.modify {base : Nat} {nodes : List Node}
    (uniform : Uniform base nodes) (index offset : Nat) (source : Bytes) :
    Uniform base (nodes.modify index fun node => node.store offset source) := by
  intro node member
  obtain ⟨place, found⟩ := List.mem_iff_getElem?.mp member
  rw [List.getElem?_modify] at found
  obtain ⟨old, at_place, rfl⟩ := Option.map_eq_some_iff.mp found
  have size := uniform old (List.mem_of_getElem? at_place)
  split <;> exact size

theorem Uniform.memory_modify {base : Nat} {nodes : List Node}
    (uniform : Uniform base nodes) {index offset : Nat} {source : Bytes}
    (bound : index < nodes.length)
    (inside : offset + source.length ≤ base) :
    memory (nodes.modify index fun node => node.store offset source) =
      blit (memory nodes) (base * index + offset) source := by
  induction nodes generalizing index with
  | nil => cases bound
  | cons node rest ih =>
      have size := uniform.head_ptr
      cases index with
      | zero =>
          rw [List.modify_zero_cons, memory_cons, memory_cons, Node.store_ptr,
            Nat.mul_zero, Nat.zero_add, blit_append_left (by omega)]
      | succ index =>
          rw [List.modify_succ_cons, memory_cons, memory_cons,
            ih uniform.tail (by simpa using bound), ← size, Nat.mul_succ,
            show node.ptr.length * index + node.ptr.length + offset =
              node.ptr.length + (node.ptr.length * index + offset) by omega,
            blit_append_right]

theorem scatter_spec {base start len : Nat} {nodes : List Node}
    {buffers : List WSABUF} {bytes : Bytes} (uniform : Uniform base nodes)
    (regions : Regions base nodes.length start buffers len)
    (fits : bytes.length ≤ len) :
    Uniform base (scatter nodes buffers bytes) ∧
      (scatter nodes buffers bytes).length = nodes.length ∧
      memory (scatter nodes buffers bytes) = blit (memory nodes) start bytes := by
  generalize places : nodes.length = count at regions
  induction regions generalizing nodes bytes with
  | nil start =>
      have : bytes = [] := List.eq_nil_of_length_eq_zero (by omega)
      exact ⟨uniform, places, by rw [this, blit_empty]; rfl⟩
  | @cons start len buffer buffers node address inside rest ih =>
      have stored : (bytes.take buffer.len).length ≤ buffer.len := by
        rw [List.length_take]
        omega
      obtain ⟨kept, length, filled⟩ :=
        @ih _ (bytes.drop buffer.len)
          (uniform.modify buffer.node buffer.offset (bytes.take buffer.len))
          (by rw [List.length_drop]; omega) (by rw [List.length_modify, places])
      refine ⟨kept, length, ?_⟩
      rw [scatter, filled, uniform.memory_modify (by omega) (by omega), address]
      by_cases whole : buffer.len ≤ bytes.length
      · have := blit_append_source (memory nodes) start
          (bytes.take buffer.len) (bytes.drop buffer.len)
        rw [List.take_append_drop, List.length_take,
          Nat.min_eq_left whole] at this
        exact this.symm
      · rw [List.drop_eq_nil_of_le (by omega), blit_empty,
          List.take_of_length_le (by omega)]

theorem gather_spec {base start len : Nat} {nodes : List Node}
    {buffers : List WSABUF} (uniform : Uniform base nodes)
    (regions : Regions base nodes.length start buffers len) :
    gather nodes buffers = ((memory nodes).drop start).take len := by
  generalize places : nodes.length = count at regions
  induction regions with
  | nil start => simp [gather]
  | @cons start len buffer buffers node address inside rest ih =>
      rw [gather, List.flatMap_cons, ← gather, ih,
        List.getElem?_eq_getElem (by omega)]
      simp only
      rw [← uniform.memory_getElem (List.getElem?_eq_getElem (by omega)) _ _
        inside, address, ← List.drop_drop, List.take_add]

namespace ByteArray

theorem getReadBuffers_regions {ba : ByteArray} (inv : ba.Inv) {len : Nat}
    (positive : 0 < len) (enough : len ≤ ba.getReadSize)
    (narrow : Narrow ba.baseSize (ba.position % ba.baseSize) len) :
    ∃ buffers, getReadBuffers len ba = .done (buffers, len) ba ∧
      Regions ba.baseSize ba.root.length ba.position buffers len := by
  have order := inv.position_le
  have within := inv.size_le
  have sizes : ba.position + len ≤ ba.size := by
    unfold getReadSize at enough
    omega
  have split := Nat.div_add_mod ba.position ba.baseSize
  have length := inv.from_length
  have place : ba.position / ba.baseSize < ba.root.length := by
    rw [Nat.div_lt_iff_lt_mul inv.base_pos, Nat.mul_comm, ← inv.capacity_eq]
    omega
  obtain ⟨buffers, result, regions, -⟩ :=
    @buffersLoop_spec _ _ (inv.uniform.drop (ba.position / ba.baseSize))
      (ba.position / ba.baseSize) _ _ (Nat.mod_lt ba.position inv.base_pos)
      positive narrow (by omega)
  rw [split, List.length_drop, Nat.add_sub_cancel' place.le] at regions
  refine ⟨buffers, ?_, regions⟩
  have current : ba.cur = some (ba.position / ba.baseSize) := by
    rw [inv.cursor, nodeAt, if_pos place]
  simp only [getReadBuffers, inv.nodesFrom_eq, current]
  rw [if_neg (show ¬ba.getReadSize < len by omega), if_neg (by omega), result]

theorem getReadBuffers_spec {ba : ByteArray} (inv : ba.Inv) {len : Nat}
    (positive : 0 < len) (enough : len ≤ ba.getReadSize)
    (small : len < 2 ^ 32) :
    ∃ buffers, getReadBuffers len ba = .done (buffers, len) ba ∧
      Regions ba.baseSize ba.root.length ba.position buffers len :=
  getReadBuffers_regions inv positive enough (narrow_of_len small)

/-- `getWriteBuffers` grows the array and hands out the bytes from the
position on. -/
theorem getWriteBuffers_regions {ba : ByteArray} (inv : ba.Inv) {len : Nat}
    (positive : 0 < len)
    (narrow : Narrow ba.baseSize (ba.position % ba.baseSize) len) :
    ∃ buffers,
      getWriteBuffers len ba = .done (buffers, len) (ba.addCapacity len) ∧
      Regions ba.baseSize (ba.addCapacity len).root.length ba.position buffers len ∧
      ∀ buffer ∈ buffers, 0 < buffer.len := by
  have grown := addCapacity_grown inv len
  have room := grown.room inv
  have base := grown.baseSize
  have position := grown.position
  have now := grown.inv
  have split := Nat.div_add_mod ba.position ba.baseSize
  have length := now.from_length
  rw [base, position] at length
  have place : ba.position / ba.baseSize < (ba.addCapacity len).root.length := by
    rw [Nat.div_lt_iff_lt_mul inv.base_pos, Nat.mul_comm, ← base,
      ← now.capacity_eq]
    omega
  have uniform := now.uniform
  rw [base] at uniform
  obtain ⟨buffers, result, regions, nonempty⟩ :=
    @buffersLoop_spec _ _ (uniform.drop (ba.position / ba.baseSize))
      (ba.position / ba.baseSize) _ _ (Nat.mod_lt ba.position inv.base_pos)
      positive narrow (by omega)
  rw [split, List.length_drop, Nat.add_sub_cancel' place.le] at regions
  refine ⟨buffers, ?_, regions, nonempty⟩
  have current : (ba.addCapacity len).cur =
      some (ba.position / ba.baseSize) := by
    rw [now.cursor, nodeAt, base, position, if_pos place]
  simp only [getWriteBuffers, now.nodesFrom_eq, current]
  rw [if_neg (by omega), base, position, result]

theorem getWriteBuffers_spec {ba : ByteArray} (inv : ba.Inv) {len : Nat}
    (positive : 0 < len) (small : len < 2 ^ 32) :
    ∃ after buffers, getWriteBuffers len ba = .done (buffers, len) after ∧
      ba.Grown len after ∧
      Regions ba.baseSize after.root.length ba.position buffers len := by
  obtain ⟨buffers, result, regions, -⟩ :=
    getWriteBuffers_regions inv positive (narrow_of_len small)
  exact ⟨_, buffers, result, addCapacity_grown inv len, regions⟩

/-- The array after a receive of `bytes` through the regions. -/
def received (ba : ByteArray) (buffers : List WSABUF) (bytes : Bytes) : ByteArray :=
  { ba with root := scatter ba.root buffers bytes }

/-- A receive through the regions of `getWriteBuffers`, and the position moved
behind it. -/
theorem Grown.received {ba grown : ByteArray} {length : Nat}
    (growth : ba.Grown length grown) (inv : ba.Inv) {buffers : List WSABUF}
    (regions : Regions ba.baseSize grown.root.length ba.position buffers length)
    {bytes : Bytes} (fits : bytes.length ≤ length) :
    (grown.received buffers bytes).Inv ∧
      ba.Written bytes length
        ((grown.received buffers bytes).moveTo (ba.position + bytes.length)) := by
  have uniform := growth.inv.uniform
  rw [growth.baseSize] at uniform
  obtain ⟨kept, nodes, stored⟩ := scatter_spec uniform regions fits
  have room := growth.room inv
  have position := growth.position
  have within := growth.inv.size_le
  have filled : (grown.received buffers bytes).Inv := by
    refine .of_cursor growth.inv.base_pos ?_ growth.inv.position_le
      growth.inv.size_le (growth.baseSize.symm ▸ kept) ?_ ?_
    · unfold ByteArray.received
      rw [← List.length_pos_iff, nodes, List.length_pos_iff]
      exact growth.inv.root_present
    · simp only [ByteArray.received, nodes]
      exact growth.inv.capacity_eq
    · simp only [ByteArray.received, ByteArray.nodeAt, nodes]
      exact growth.inv.cursor
  have target : ba.position + bytes.length ≤ grown.capacity := by omega
  refine ⟨filled, {
    inv := filled.moveTo target
    baseSize := growth.baseSize
    endian := growth.endian
    position := rfl
    size := ?_
    capacity := growth.capacity
    memory := ?_ }⟩
  · rw [← growth.size, max_def_lt]
    rfl
  · obtain ⟨extra, extended⟩ := growth.memory
    refine ⟨extra, ?_, ?_⟩
    · rw [← extended, growth.inv.memory_length]
      omega
    · rw [← extended]
      exact stored

end ByteArray

end Sylar
