import Sylar.Buffer.Reads
import Sylar.Buffer.Transfer

namespace Sylar

open Logic Data

/-! The positional `getReadBuffers`, and `getMd5` over it. -/

/-- Regions inside the nodes. The length of a region may have been cut to 32
bits. -/
def Inside (base count : Nat) (buffers : List WSABUF) : Prop :=
  ∀ buffer ∈ buffers, buffer.node < count ∧ buffer.offset + buffer.len ≤ base

/-- The walk hands out as many bytes as it is asked for exactly when no region is
cut. -/
theorem buffersLoop_total {base : Nat} {nodes : List Node}
    (uniform : Uniform base nodes) {index npos len : Nat} {buffers : List WSABUF}
    (inside : npos < base)
    (result : buffersLoop nodes index npos len = some buffers) :
    Inside base (index + nodes.length) buffers ∧ totalLen buffers ≤ len ∧
      (totalLen buffers = len → Narrow base npos len) := by
  induction nodes generalizing index npos len buffers with
  | nil => cases result
  | cons node rest ih =>
      have size : node.size = base := uniform.head
      have here : index < index + (node :: rest).length := by
        rw [List.length_cons]
        omega
      simp only [buffersLoop, size] at result
      split at result
      · rename_i short
        cases result
        have cut := Nat.mod_le len (2 ^ 32)
        have total : totalLen [⟨index, npos, len % 2 ^ 32⟩] = len % 2 ^ 32 := by
          simp [totalLen]
        refine ⟨by simp [Inside]; omega, total.trans_le cut, ?_⟩
        rw [total]
        intro whole
        have := Nat.mod_lt len (show 0 < 2 ^ 32 by decide)
        exact narrow_of_len (by omega)
      · rename_i long
        obtain ⟨later, walked, rfl⟩ := Option.map_eq_some_iff.mp result
        obtain ⟨within, bounded, narrow⟩ := ih uniform.tail (by omega) walked
        have cut := Nat.mod_le (base - npos) (2 ^ 32)
        have total : totalLen (⟨index, npos, (base - npos) % 2 ^ 32⟩ :: later) =
            (base - npos) % 2 ^ 32 + totalLen later := by simp [totalLen]
        refine ⟨?_, by omega, ?_⟩
        · intro buffer member
          rcases List.mem_cons.mp member with rfl | tail
          · exact ⟨here, by simp only; omega⟩
          · obtain ⟨place, fits⟩ := within buffer tail
            exact ⟨by rw [List.length_cons]; omega, fits⟩
        · rw [total]
          intro whole
          have := Nat.mod_lt (base - npos) (show 0 < 2 ^ 32 by decide)
          obtain ⟨first, others⟩ := narrow (by omega)
          exact ⟨by omega, by omega⟩

theorem gather_length {base : Nat} {nodes : List Node}
    (uniform : Uniform base nodes) {buffers : List WSABUF}
    (inside : Inside base nodes.length buffers) :
    (gather nodes buffers).length = totalLen buffers := by
  induction buffers with
  | nil => rfl
  | cons buffer buffers ih =>
      obtain ⟨place, fits⟩ := inside buffer (by simp)
      have size : (nodes[buffer.node]).ptr.length = base :=
        (nodes[buffer.node]).sized.trans (uniform _ (List.getElem_mem place))
      rw [gather, List.flatMap_cons, ← gather, List.length_append,
        ih fun other member => inside other (by simp [member]),
        List.getElem?_eq_getElem place]
      simp only [Node.load, List.length_take, List.length_drop, size, totalLen,
        List.map_cons, List.sum_cons]
      omega

/-- Where the regions end. -/
theorem Regions.stop_le {base count start len : Nat} {buffers : List WSABUF}
    (regions : Regions base count start buffers len) :
    ∀ buffer ∈ buffers,
      base * buffer.node + buffer.offset + buffer.len ≤ start + len := by
  induction regions with
  | nil => exact fun _ member => absurd member List.not_mem_nil
  | cons _ address _ _ ih =>
      intro other member
      rcases List.mem_cons.mp member with rfl | later
      · omega
      · exact (ih other later).trans (by omega)

namespace ByteArray

/-- `getMd5`; `md5sum` is what MD5 makes of the bytes it is fed, in order. -/
def getMd5 (md5sum : Bytes → D) : Method D := fun ba =>
  match getReadBuffersAt (2 ^ 64 - 1) 0 ba with
  | .done (buffers, _) ba => .done (md5sum (gather ba.root buffers)) ba
  | .raise error ba => .raise error ba
  | .fault => .fault

/-- The regions are the bytes from `position` on, as many as asked for and there
are, and none of them lies at or beyond `m_size`. -/
def HandsOut (ba : ByteArray) (len position : Nat) : Prop :=
  ∃ buffers count,
    getReadBuffersAt len position ba = .done (buffers, count) ba ∧
    count = min len (ba.size - position) ∧
    gather ba.root buffers = ba.window position count ∧
    ∀ buffer ∈ buffers,
      ba.baseSize * buffer.node + buffer.offset + buffer.len ≤ ba.size

def Digests (ba : ByteArray) : Prop :=
  ∀ (D : Type) (md5sum : Bytes → D),
    getMd5 md5sum ba = .done (md5sum ba.content) ba

theorem getReadBuffersAt_regions {ba : ByteArray} (inv : ba.Inv)
    {len position : Nat} (positive : 0 < len) (enough : len ≤ ba.getReadSize)
    (sizes : position + len ≤ ba.size)
    (narrow : Narrow ba.baseSize (position % ba.baseSize) len) :
    ∃ buffers, getReadBuffersAt len position ba = .done (buffers, len) ba ∧
      Regions ba.baseSize ba.root.length position buffers len := by
  have within := inv.size_le
  have capacity := inv.capacity_eq
  have split := Nat.div_add_mod position ba.baseSize
  have place : position / ba.baseSize < ba.root.length := by
    rw [Nat.div_lt_iff_lt_mul inv.base_pos, Nat.mul_comm, ← inv.capacity_eq]
    omega
  have room : position % ba.baseSize + len ≤
      ba.baseSize * (ba.root.drop (position / ba.baseSize)).length := by
    rw [List.length_drop, Nat.mul_sub]
    have := Nat.mul_le_mul_left ba.baseSize place.le
    omega
  obtain ⟨buffers, result, regions, -⟩ :=
    @buffersLoop_spec _ _ (inv.uniform.drop (position / ba.baseSize))
      (position / ba.baseSize) _ _ (Nat.mod_lt position inv.base_pos)
      positive narrow room
  rw [split, List.length_drop, Nat.add_sub_cancel' place.le] at regions
  refine ⟨buffers, ?_, regions⟩
  simp only [getReadBuffersAt]
  rw [if_neg (show ¬ba.getReadSize < len by omega), if_neg (by omega), result]

theorem getReadBuffersAt_clamped (ba : ByteArray) (len position : Nat) :
    getReadBuffersAt (min len ba.getReadSize) position ba =
      getReadBuffersAt len position ba := by
  have clamped : (if ba.getReadSize < min len ba.getReadSize then ba.getReadSize
      else min len ba.getReadSize) =
      if ba.getReadSize < len then ba.getReadSize else len := by
    split <;> split <;> omega
  simp only [getReadBuffersAt, clamped]

/-- What a successful call returns: as many bytes as `getReadSize` allows, if no
region was cut. -/
theorem getReadBuffersAt_result {ba : ByteArray} (inv : ba.Inv)
    {len position count : Nat} {buffers : List WSABUF}
    (result : getReadBuffersAt len position ba = .done (buffers, count) ba) :
    count = min len ba.getReadSize ∧
      (gather ba.root buffers).length ≤ count ∧
      ((gather ba.root buffers).length = count →
        Narrow ba.baseSize (position % ba.baseSize) count) := by
  have clamped : (if ba.getReadSize < len then ba.getReadSize else len) =
      min len ba.getReadSize := by
    split <;> omega
  simp only [getReadBuffersAt] at result
  rw [clamped] at result
  split at result
  · rename_i none
    cases result
    exact ⟨none.symm, Nat.le_refl 0, fun _ => narrow_of_len (by decide)⟩
  · split at result
    · cases result
    · rename_i positive _ walked
      cases result
      obtain ⟨within, bounded, narrow⟩ := buffersLoop_total
        (inv.uniform.drop (position / ba.baseSize))
        (Nat.mod_lt position inv.base_pos) walked
      have present : position / ba.baseSize < ba.root.length := by
        by_contra beyond
        rw [List.drop_eq_nil_of_le (by omega)] at walked
        cases walked
      rw [List.length_drop, Nat.add_sub_cancel' present.le] at within
      rw [gather_length inv.uniform within]
      exact ⟨rfl, bounded, narrow⟩

theorem handsOut_iff {ba : ByteArray} (inv : ba.Inv) {len position : Nat}
    (inside : position ≤ ba.size) :
    ba.HandsOut len position ↔
      (position = ba.position ∨
        len ≤ ba.size - ba.position ∧ len ≤ ba.size - position) ∧
      Narrow ba.baseSize (position % ba.baseSize)
        (min len (ba.size - position)) := by
  have order := inv.position_le
  have within := inv.size_le
  constructor
  · rintro ⟨buffers, count, result, asked, bytes, -⟩
    obtain ⟨clamped, -, narrow⟩ := getReadBuffersAt_result inv result
    unfold getReadSize at clamped
    rw [← asked]
    refine ⟨by omega, narrow ?_⟩
    rw [bytes, inv.window_length (by omega)]
  · rintro ⟨agrees, narrow⟩
    have clamped : min len ba.getReadSize = min len (ba.size - position) := by
      unfold getReadSize
      omega
    unfold HandsOut
    rw [← getReadBuffersAt_clamped, clamped]
    rcases Nat.eq_zero_or_pos (min len (ba.size - position)) with none | positive
    · rw [none]
      exact ⟨[], 0, by simp [getReadBuffersAt], rfl, rfl, by simp⟩
    · obtain ⟨buffers, result, regions⟩ := getReadBuffersAt_regions inv positive
        (clamped.symm.trans_le (Nat.min_le_right _ _)) (by omega) narrow
      refine ⟨buffers, _, result, rfl, gather_spec inv.uniform regions, ?_⟩
      intro buffer member
      exact (regions.stop_le buffer member).trans (by omega)

theorem getMd5_done {ba : ByteArray} {md5sum : Bytes → D} {digest : D}
    (fed : getMd5 md5sum ba = .done digest ba) :
    ∃ buffers count, getReadBuffersAt (2 ^ 64 - 1) 0 ba = .done (buffers, count) ba ∧
      digest = md5sum (gather ba.root buffers) := by
  unfold getMd5 at fed
  split at fed
  · rename_i buffers count after result
    obtain ⟨same, rfl⟩ := Outcome.done.inj fed
    exact ⟨buffers, count, result, same.symm⟩
  · cases fed
  · cases fed

theorem digests_iff {ba : ByteArray} (inv : ba.Inv) :
    ba.Digests ↔ ba.position = 0 ∧ ba.size < 2 ^ 64 ∧
      Narrow ba.baseSize 0 ba.size := by
  have order := inv.position_le
  constructor
  · intro digests
    obtain ⟨buffers, count, result, fed⟩ := getMd5_done (digests Bytes id)
    obtain ⟨clamped, bounded, narrow⟩ := getReadBuffersAt_result inv result
    have whole : (gather ba.root buffers).length = ba.size := by
      rw [← inv.content_length]
      exact congrArg List.length fed.symm
    unfold getReadSize at clamped
    rw [Nat.zero_mod, show count = ba.size by omega] at narrow
    exact ⟨by omega, by omega, narrow whole⟩
  · rintro ⟨start, small, narrow⟩ D md5sum
    have length : min (2 ^ 64 - 1) (ba.size - 0) = ba.size := by omega
    obtain ⟨buffers, count, result, asked, bytes, -⟩ :=
      (@handsOut_iff ba inv (2 ^ 64 - 1) 0 (Nat.zero_le ba.size)).mpr
        ⟨.inl start.symm, by rwa [Nat.zero_mod, length]⟩
    rw [length] at asked
    rw [getMd5, result]
    simp only
    rw [bytes, asked]
    rfl

/-- The positional `getReadBuffers` hands out what it should when the length is
clamped alike from both positions and no region is cut, and `getMd5` digests the
whole array from its start. -/
theorem positional_buffers_iff {host : Host} {ba : ByteArray}
    (reachable : Reachable host ba) :
    (∀ len position, position ≤ ba.size →
      (ba.HandsOut len position ↔
        (position = ba.position ∨
          len ≤ ba.size - ba.position ∧ len ≤ ba.size - position) ∧
        Narrow ba.baseSize (position % ba.baseSize)
          (min len (ba.size - position)))) ∧
    (ba.Digests ↔ ba.position = 0 ∧ ba.size < 2 ^ 64 ∧
      Narrow ba.baseSize 0 ba.size) := by
  have inv := reachable_inv reachable
  exact ⟨fun _ _ inside => handsOut_iff inv inside, digests_iff inv⟩

/-- Three bytes, read from their start. -/
theorem positional_buffers_start :
    ∃ ba : ByteArray, ba.position = 0 ∧ ba.content = [1, 2, 3] ∧
      ba.HandsOut 2 0 ∧ ba.Digests := by
  have started : Reachable ⟨.little, .little⟩ (new .little (fun _ => 0) 2) :=
    .start _ (.new (fun _ => 0) 2 (by decide))
  obtain ⟨ba, ran, position, size, base, content⟩ : ∃ ba : ByteArray,
      exec (fun ba op => Op.after ⟨.little, .little⟩ ba op)
        (new .little (fun _ => 0) 2) [.write [1, 2, 3], .setPosition 0] =
          some ba ∧
      ba.position = 0 ∧ ba.size = 3 ∧ ba.baseSize = 2 ∧
      ba.content = [1, 2, 3] := by
    simp only [exec, Op.after]
    exact ⟨_, rfl, rfl, rfl, rfl, rfl⟩
  have small : ba.baseSize < 2 ^ 32 := by
    rw [base]
    decide
  obtain ⟨regions, digest⟩ := positional_buffers_iff (reach_exec started ran)
  refine ⟨ba, position, content, ?_, ?_⟩
  · exact (regions 2 0 (Nat.zero_le _)).mpr
      ⟨.inl position.symm, narrow_of_base small⟩
  · exact digest.mpr ⟨position, by rw [size]; decide, narrow_of_base small⟩

/-- At the end of three bytes none of them is handed out or digested; from their
start the byte behind the last is handed out, and a null node is followed. -/
theorem positional_buffers_clamped :
    (∃ ba : ByteArray, Reachable ⟨.little, .little⟩ ba ∧
      ba.content = [1, 2, 3] ∧ getReadBuffersAt 3 0 ba = .done ([], 0) ba ∧
      getMd5 id ba = .done [] ba) ∧
    ∃ ba : ByteArray, Reachable ⟨.little, .little⟩ ba ∧
      ba.content = [1, 2, 3] ∧
      getReadBuffersAt 2 2 ba = .done ([⟨1, 0, 2⟩], 2) ba ∧
      getReadBuffersAt 3 2 ba = .fault := by
  have started : Reachable ⟨.little, .little⟩ (new .little (fun _ => 0) 2) :=
    .start _ (.new (fun _ => 0) 2 (by decide))
  refine ⟨?_, ?_⟩
  · obtain ⟨ba, ran, rest⟩ : ∃ ba : ByteArray,
        exec (fun ba op => Op.after ⟨.little, .little⟩ ba op)
          (new .little (fun _ => 0) 2) [.write [1, 2, 3]] = some ba ∧
        ba.content = [1, 2, 3] ∧ getReadBuffersAt 3 0 ba = .done ([], 0) ba ∧
        getMd5 id ba = .done [] ba := by
      simp only [exec, Op.after]
      exact ⟨_, rfl, rfl, rfl, rfl⟩
    exact ⟨ba, reach_exec started ran, rest⟩
  · obtain ⟨ba, ran, rest⟩ : ∃ ba : ByteArray,
        exec (fun ba op => Op.after ⟨.little, .little⟩ ba op)
          (new .little (fun _ => 0) 2) [.write [1, 2, 3], .setPosition 0] =
            some ba ∧
        ba.content = [1, 2, 3] ∧
        getReadBuffersAt 2 2 ba = .done ([⟨1, 0, 2⟩], 2) ba ∧
        getReadBuffersAt 3 2 ba = .fault := by
      simp only [exec, Op.after]
      exact ⟨_, rfl, rfl, rfl, rfl⟩
    exact ⟨ba, reach_exec started ran, rest⟩

end ByteArray

end Sylar
