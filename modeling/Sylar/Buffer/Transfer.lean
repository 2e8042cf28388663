import Sylar.Buffer.Content
import Sylar.Buffer.Reachable

namespace Sylar

open Logic Data

/-! Transfers through the regions against `write` and the bytes in the array. -/

namespace ByteArray

/-- The bytes a store leaves, whatever the array was grown for. -/
theorem Written.content_eq {ba after : ByteArray} {source : Bytes} {room : Nat}
    (written : ba.Written source room after) (inv : ba.Inv) :
    after.content = ba.content.take ba.position ++ source ++
      ba.content.drop (ba.position + source.length) := by
  obtain ⟨extra, fits, stored⟩ := written.memory
  have within := inv.size_le
  have order := inv.position_le
  have capacity := inv.memory_length
  apply List.ext_getElem?
  intro index
  have front : (ba.content.take ba.position).length = ba.position := by
    rw [List.length_take, inv.content_length]
    omega
  have stop : (ba.content.take ba.position ++ source).length =
      ba.position + source.length := by rw [List.length_append, front]
  have old : ∀ place, place < ba.size →
      (Sylar.memory ba.root ++ extra)[place]? = ba.content[place]? := by
    intro place kept
    rw [content, List.getElem?_take_of_lt kept, List.getElem?_append_left (by omega)]
  rw [show after.content = (Sylar.memory after.root).take after.size from rfl,
    written.size, stored]
  rcases Nat.lt_or_ge index (ba.position + source.length) with before | behind
  · have here : (ba.content.take ba.position ++ source ++
        ba.content.drop (ba.position + source.length))[index]? =
        (ba.content.take ba.position ++ source)[index]? :=
      List.getElem?_append_left (stop.symm ▸ before)
    rw [List.getElem?_take_of_lt (by omega), blit_getElem?, here]
    rcases Nat.lt_or_ge index ba.position with first | inside
    · rw [if_neg (by omega), old index (by omega),
        List.getElem?_append_left (front.symm ▸ first),
        List.getElem?_take_of_lt first]
    · rw [if_pos ⟨inside, before, by omega⟩,
        List.getElem?_append_right (front.le.trans inside), front]
  · rw [List.getElem?_append_right (stop.le.trans behind), stop, List.getElem?_drop,
      Nat.add_sub_cancel' behind]
    rcases Nat.lt_or_ge index ba.size with kept | beyond
    · rw [List.getElem?_take_of_lt (by omega), blit_getElem?, if_neg (by omega),
        old index kept]
    · rw [List.getElem?_eq_none (by rw [List.length_take]; omega),
        List.getElem?_eq_none (inv.content_length.le.trans beyond)]

theorem Written.agrees {ba one other : ByteArray} {source : Bytes} {room more : Nat}
    (first : ba.Written source room one) (second : ba.Written source more other)
    (inv : ba.Inv) :
    one.position = other.position ∧ one.size = other.size ∧
      one.content = other.content :=
  ⟨first.position.trans second.position.symm, first.size.trans second.size.symm,
    (first.content_eq inv).trans (second.content_eq inv).symm⟩

theorem Inv.cursor_iff {ba : ByteArray} (inv : ba.Inv) (index : Nat) :
    ba.cur = some index ↔
      index < ba.root.length ∧ index = ba.position / ba.baseSize := by
  rw [inv.cursor, nodeAt_some]
  constructor
  · rintro ⟨place, rfl⟩
    exact ⟨place, rfl⟩
  · rintro ⟨place, rfl⟩
    exact ⟨place, rfl⟩

/-- Regions for `bytes`, the first `count` of them received, and the position
moved behind these: as if they had been written. -/
theorem received_agrees {ba : ByteArray} (inv : ba.Inv)
    (small : ba.baseSize < 2 ^ 32) {bytes : Bytes} (nonempty : 1 ≤ bytes.length)
    {count : Nat} (bound : count ≤ bytes.length) :
    ∃ grown buffers moved written,
      getWriteBuffers bytes.length ba = .done (buffers, bytes.length) grown ∧
      totalLen buffers = bytes.length ∧ (∀ buffer ∈ buffers, 0 < buffer.len) ∧
      setPosition (ba.position + count)
        (grown.received buffers (bytes.take count)) = .done () moved ∧
      write (bytes.take count) ba = .done () written ∧
      moved.position = written.position ∧ moved.size = written.size ∧
      moved.content = written.content ∧
      ∀ index, moved.cur = some index ↔
        index < moved.root.length ∧ index = moved.position / moved.baseSize := by
  obtain ⟨buffers, reserved, regions, filled⟩ :=
    getWriteBuffers_regions inv nonempty (narrow_of_base small)
  have growth := addCapacity_grown inv bytes.length
  have taken : (bytes.take count).length = count := List.length_take_of_le bound
  obtain ⟨after, stored⟩ := growth.received inv regions (taken.le.trans bound)
  rw [taken] at stored
  obtain ⟨written, direct, copied⟩ := write_spec inv (bytes.take count)
  have room := growth.room inv
  have target : ba.position + count ≤ (ba.addCapacity bytes.length).capacity := by
    omega
  refine ⟨_, buffers, _, written, reserved, regions.totalLen_eq, filled,
    setPosition_spec after target, direct, ?_⟩
  obtain ⟨position, size, content⟩ := stored.agrees copied inv
  exact ⟨position, size, content, stored.inv.cursor_iff⟩

theorem getReadBuffers_bytes {ba : ByteArray} (inv : ba.Inv)
    (small : ba.baseSize < 2 ^ 32) (len : Nat) :
    ∃ buffers,
      getReadBuffers len ba = .done (buffers, min len ba.getReadSize) ba ∧
      gather ba.root buffers = ba.unread.take (min len ba.getReadSize) := by
  have clamped : (if ba.getReadSize < len then ba.getReadSize else len) =
      min len ba.getReadSize := by
    split <;> omega
  rcases Nat.eq_zero_or_pos (min len ba.getReadSize) with none | positive
  · refine ⟨[], ?_, by rw [none]; rfl⟩
    simp only [getReadBuffers]
    rw [clamped, none, if_pos rfl]
  · obtain ⟨buffers, result, regions⟩ := getReadBuffers_regions inv positive
      (Nat.min_le_right len _) (narrow_of_base small)
    refine ⟨buffers, ?_, ?_⟩
    · rw [← result]
      simp only [getReadBuffers]
      rw [clamped, if_neg (Nat.not_lt.mpr (Nat.min_le_right len _))]
    · rw [gather_spec inv.uniform regions, ba.unread_eq, List.take_take,
        show min (min len ba.getReadSize) (ba.size - ba.position) =
          min len ba.getReadSize from Nat.min_eq_left (Nat.min_le_right _ _)]

/-- Scatter and gather agree with direct access. -/
theorem scatter_gather {host : Host} {ba : ByteArray}
    (reachable : Reachable host ba) (small : ba.baseSize < 2 ^ 32) :
    (∀ (bytes : Bytes) (count : Nat), 1 ≤ bytes.length → count ≤ bytes.length →
      ∃ grown buffers moved written,
        getWriteBuffers bytes.length ba = .done (buffers, bytes.length) grown ∧
        totalLen buffers = bytes.length ∧ (∀ buffer ∈ buffers, 0 < buffer.len) ∧
        setPosition (ba.position + count)
          (grown.received buffers (bytes.take count)) = .done () moved ∧
        write (bytes.take count) ba = .done () written ∧
        moved.position = written.position ∧ moved.size = written.size ∧
        moved.content = written.content ∧
        ∀ index, moved.cur = some index ↔
          index < moved.root.length ∧ index = moved.position / moved.baseSize) ∧
    ∀ len, ∃ buffers,
      getReadBuffers len ba = .done (buffers, min len ba.getReadSize) ba ∧
      gather ba.root buffers = ba.unread.take (min len ba.getReadSize) := by
  have inv := reachable_inv reachable
  refine ⟨?_, getReadBuffers_bytes inv small⟩
  intro bytes count nonempty bound
  exact received_agrees inv small nonempty bound

/-- Three bytes asked for at the end of a full node of two, two of them come. -/
theorem scatter_gather_partial :
    ∃ ba grown buffers moved,
      ba.position = ba.capacity ∧
      getWriteBuffers 3 ba = .done (buffers, 3) grown ∧
      setPosition 4 (grown.received buffers [3, 4]) = .done () moved ∧
      moved.content = [1, 2, 3, 4] := by
  have started : Reachable ⟨.little, .little⟩ (new .little (fun _ => 0) 2) :=
    .start _ (.new (fun _ => 0) 2 (by decide))
  obtain ⟨ba, ran, position, ended, base, written, whole⟩ : ∃ ba : ByteArray,
      exec (fun ba op => Op.after ⟨.little, .little⟩ ba op)
        (new .little (fun _ => 0) 2) [.write [1, 2]] = some ba ∧
      ba.position = 2 ∧ ba.capacity = 2 ∧ ba.baseSize = 2 ∧
      ∃ written, write [3, 4] ba = .done () written ∧
        written.content = [1, 2, 3, 4] := by
    simp only [exec, Op.after]
    exact ⟨_, rfl, rfl, rfl, rfl, _, rfl, rfl⟩
  obtain ⟨transfers, -⟩ := scatter_gather (reach_exec started ran) (by
    rw [base]
    decide)
  obtain ⟨grown, buffers, moved, direct, reserved, -, -, placed, same, -, -, content,
    -⟩ := transfers [3, 4, 5] 2 (by decide) (by decide)
  cases whole.1.symm.trans same
  rw [position] at placed
  exact ⟨ba, grown, buffers, moved, position.trans ended.symm, reserved, placed,
    content.trans whole.2⟩

end ByteArray

end Sylar
