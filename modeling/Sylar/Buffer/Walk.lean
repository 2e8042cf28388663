import Sylar.Buffer.Core

namespace Sylar

open Logic Data

/-! The node loops over nodes of one size, read as operations on the memory
that the nodes hold together. -/

/-- The bytes of a node list, one node after the other. -/
def memory (nodes : List Node) : Bytes := (nodes.map Node.ptr).flatten

@[simp] theorem memory_nil : memory [] = [] := rfl

@[simp] theorem memory_cons (node : Node) (nodes : List Node) :
    memory (node :: nodes) = node.ptr ++ memory nodes := rfl

@[simp] theorem memory_append (first second : List Node) :
    memory (first ++ second) = memory first ++ memory second := by
  simp [memory]

def Uniform (base : Nat) (nodes : List Node) : Prop :=
  ∀ node ∈ nodes, node.size = base

namespace Uniform

variable {base : Nat} {nodes : List Node} {node : Node}

theorem head (uniform : Uniform base (node :: nodes)) : node.size = base :=
  uniform node (by simp)

theorem head_ptr (uniform : Uniform base (node :: nodes)) :
    node.ptr.length = base := node.sized.trans uniform.head

theorem tail (uniform : Uniform base (node :: nodes)) : Uniform base nodes :=
  fun other member => uniform other (by simp [member])

theorem cons (head : node.size = base) (tail : Uniform base nodes) :
    Uniform base (node :: nodes) := by
  intro other member
  rcases List.mem_cons.mp member with rfl | later
  · exact head
  · exact tail other later

theorem append {first second : List Node} (left : Uniform base first)
    (right : Uniform base second) : Uniform base (first ++ second) := by
  intro node member
  rcases List.mem_append.mp member with inFirst | inSecond
  · exact left node inFirst
  · exact right node inSecond

theorem drop (uniform : Uniform base nodes) (count : Nat) :
    Uniform base (nodes.drop count) :=
  fun node member => uniform node (List.mem_of_mem_drop member)

theorem take (uniform : Uniform base nodes) (count : Nat) :
    Uniform base (nodes.take count) :=
  fun node member => uniform node (List.mem_of_mem_take member)

private theorem chunks (uniform : Uniform base nodes) :
    ∀ chunk ∈ nodes.map Node.ptr, chunk.length = base := by
  intro chunk member
  obtain ⟨node, nodeMember, rfl⟩ := List.mem_map.mp member
  exact node.sized.trans (uniform node nodeMember)

theorem memory_length (uniform : Uniform base nodes) :
    (memory nodes).length = base * nodes.length := by
  rw [memory, flatten_length_uniform uniform.chunks, List.length_map]

theorem memory_drop (uniform : Uniform base nodes) (count : Nat) :
    memory (nodes.drop count) = (memory nodes).drop (base * count) := by
  rw [memory, memory, List.map_drop, flatten_drop_uniform uniform.chunks]

theorem memory_take (uniform : Uniform base nodes) (count : Nat) :
    memory (nodes.take count) = (memory nodes).take (base * count) := by
  rw [memory, memory, List.map_take, flatten_take_uniform uniform.chunks]

end Uniform

/-! Counting the nodes a transfer fills. -/

theorem steps_inside {base npos count : Nat} (inside : npos < base)
    (short : count ≤ base - npos) :
    (if base = npos + count then 1 else 0) = (npos + count) / base := by
  split
  · rename_i full
    rw [← full, Nat.div_self (by omega)]
  · exact (Nat.div_eq_of_lt (by omega)).symm

theorem steps_across {base npos count : Nat} (inside : npos < base)
    (long : base - npos < count) :
    (0 + (count - (base - npos))) / base + 1 = (npos + count) / base := by
  rw [← Nat.add_div_right _ (by omega)]
  congr 1
  omega

theorem writeLoop_spec {base npos : Nat} {nodes : List Node} {source : Bytes}
    (uniform : Uniform base nodes) (inside : npos < base)
    (nonempty : 0 < source.length)
    (fits : npos + source.length ≤ base * nodes.length) :
    ∃ written,
      writeLoop nodes npos source =
        some (written, (npos + source.length) / base) ∧
      Uniform base written ∧ written.length = nodes.length ∧
      memory written = blit (memory nodes) npos source := by
  induction nodes generalizing npos source with
  | nil =>
      rw [List.length_nil, Nat.mul_zero] at fits
      omega
  | cons node rest ih =>
      have size : node.size = base := uniform.head
      simp only [writeLoop, size]
      by_cases short : source.length ≤ base - npos
      · refine ⟨node.store npos source :: rest, ?_, ?_, rfl, ?_⟩
        · rw [if_pos short, steps_inside inside short]
        · exact .cons size uniform.tail
        · rw [memory_cons, memory_cons, Node.store_ptr,
            blit_append_left (by rw [uniform.head_ptr]; omega)]
      · -- The node takes the first `base - npos` bytes; the rest of the
        -- source goes to the nodes after it from their start.
        rw [if_neg short]
        have restLength : (source.drop (base - npos)).length =
            source.length - (base - npos) := List.length_drop
        obtain ⟨written, result, writtenUniform, count, stored⟩ :=
          @ih 0 (source.drop (base - npos)) uniform.tail (by omega) (by omega)
            (by
              rw [List.length_cons, Nat.mul_succ] at fits
              omega)
        refine ⟨node.store npos (source.take (base - npos)) :: written,
          ?_, ?_, ?_, ?_⟩
        · rw [result, Option.map_some, restLength,
            steps_across inside (by omega)]
        · exact .cons size writtenUniform
        · rw [List.length_cons, List.length_cons, count]
        · rw [memory_cons, memory_cons, Node.store_ptr, stored,
            ← blit_append_split, List.take_append_drop]
          rw [uniform.head_ptr, List.length_take]
          omega

theorem readLoop_spec {base npos count : Nat} {nodes : List Node}
    (uniform : Uniform base nodes) (inside : npos < base)
    (present : nodes ≠ []) (fits : npos + count ≤ base * nodes.length) :
    readLoop nodes npos count =
      some (((memory nodes).drop npos).take count, (npos + count) / base) := by
  induction nodes generalizing npos count with
  | nil => contradiction
  | cons node rest ih =>
      have size : node.size = base := uniform.head
      have length : node.ptr.length = base := uniform.head_ptr
      simp only [readLoop, size, memory_cons]
      by_cases none : count = 0
      · subst count
        rw [if_pos rfl, List.take_zero, Nat.add_zero,
          Nat.div_eq_of_lt inside]
      · rw [if_neg none]
        by_cases short : count ≤ base - npos
        · rw [if_pos short, steps_inside inside short, Node.load,
            List.drop_append_of_le_length (by omega),
            List.take_append_of_le_length (by rw [List.length_drop]; omega)]
        · rw [if_neg short]
          rw [List.length_cons, Nat.mul_succ] at fits
          have more : rest ≠ [] := by
            rintro rfl
            rw [List.length_nil, Nat.mul_zero] at fits
            omega
          have kept : (node.ptr.drop npos).length = base - npos := by
            rw [List.length_drop, length]
          rw [ih uniform.tail (by omega) more (by omega), Option.map_some,
            steps_across inside (by omega), List.drop_zero, Node.load,
            List.drop_append_of_le_length (by omega), List.take_append, kept,
            List.take_of_length_le (i := base - npos) (by omega),
            List.take_of_length_le (i := count) (by omega)]

theorem seekLoop_spec {base v : Nat} {nodes : List Node}
    (uniform : Uniform base nodes) (positive : 0 < base)
    (present : nodes ≠ []) (fits : v ≤ base * nodes.length) :
    seekLoop nodes v = some (v / base) := by
  induction nodes generalizing v with
  | nil => contradiction
  | cons node rest ih =>
      have size : node.size = base := uniform.head
      simp only [seekLoop, size]
      by_cases beyond : base < v
      · rw [if_pos beyond]
        rw [List.length_cons, Nat.mul_succ] at fits
        have more : rest ≠ [] := by
          rintro rfl
          rw [List.length_nil, Nat.mul_zero] at fits
          omega
        rw [ih uniform.tail more (by omega), Option.map_some,
          ← Nat.add_div_right _ positive, Nat.sub_add_cancel (by omega)]
      · rw [if_neg beyond]
        split
        · rename_i full
          rw [full, Nat.div_self positive]
        · rw [Nat.div_eq_of_lt (by omega)]

end Sylar
