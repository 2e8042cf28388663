import Sylar.Buffer.Content
import Sylar.Buffer.Reachable

namespace Sylar

open Logic Data

/-! `writeToFile`. The sizes of arrays in memory fit `int64_t`, the offset in a
node is an `int`. -/

/-- A call `ofs.write(cur->ptr + diff, len)` with `cur` at node `node`. -/
structure FileWrite where
  node : Nat
  diff : Int
  len : Int
  deriving DecidableEq, Repr

def FileWrite.region (call : FileWrite) : WSABUF :=
  ⟨call.node, call.diff.toNat, call.len.toNat⟩

/-- The loop; `none` is a null `cur`. Each round follows `next`. -/
def fileLoop (baseSize : Nat) : List Node → Nat → Int → Int → Option (List FileWrite)
  | [], _, _, read_size => if 0 < read_size then none else some []
  | _ :: rest, index, pos, read_size =>
      if 0 < read_size then
        let diff := toInt32 (pos % baseSize)
        let len := (if baseSize < read_size then (baseSize : Int) else read_size) - diff
        (fileLoop baseSize rest (index + 1) (pos + len) (read_size - len)).map
          (⟨index, diff, len⟩ :: ·)
      else some []

theorem fileLoop_done (base : Nat) (nodes : List Node) (index : Nat) (pos : Int) :
    fileLoop base nodes index pos 0 = some [] := by
  cases nodes <;> rfl

theorem Regions.write {base count start len index diff chunk : Nat}
    {calls : List FileWrite} (node : index < count)
    (address : base * index + diff = start) (inside : diff + chunk ≤ base)
    (rest : Regions base count (start + chunk) (calls.map FileWrite.region) len) :
    Regions base count start
      ((⟨index, diff, chunk⟩ :: calls : List FileWrite).map FileWrite.region)
      (chunk + len) :=
  @Regions.cons base count start len ⟨index, diff, chunk⟩ _ node address inside rest

theorem Regions.uncons {base count start len : Nat} {buffer : WSABUF}
    {buffers : List WSABUF}
    (regions : Regions base count start (buffer :: buffers) len) :
    buffer.node < count ∧ base * buffer.node + buffer.offset = start ∧
      buffer.offset + buffer.len ≤ base ∧
      Regions base count (start + buffer.len) buffers (len - buffer.len) := by
  cases regions with
  | cons node address inside rest =>
      rw [Nat.add_sub_cancel_left]
      exact ⟨node, address, inside, rest⟩

/-- The calls can be made, and write the `count` bytes from `start` on. -/
structure Covers (base nodes start : Nat) (calls : List FileWrite) (count : Nat) :
    Prop where
  diff : ∀ call ∈ calls, 0 ≤ call.diff
  len : ∀ call ∈ calls, 0 ≤ call.len
  regions : Regions base nodes start (calls.map FileWrite.region) count

theorem Covers.nil (base nodes start : Nat) : Covers base nodes start [] 0 :=
  ⟨by simp, by simp, .nil start⟩

theorem Covers.cons {base nodes start len index diff chunk : Nat}
    {calls : List FileWrite} (node : index < nodes)
    (address : base * index + diff = start) (inside : diff + chunk ≤ base)
    (rest : Covers base nodes (start + chunk) calls len) :
    Covers base nodes start (⟨index, diff, chunk⟩ :: calls) (chunk + len) where
  diff := by
    intro call member
    rcases List.mem_cons.mp member with rfl | later
    · exact Int.natCast_nonneg diff
    · exact rest.diff call later
  len := by
    intro call member
    rcases List.mem_cons.mp member with rfl | later
    · exact Int.natCast_nonneg chunk
    · exact rest.len call later
  regions := .write node address inside rest.regions

/-- From the start of a node on every round writes a whole node, the last one what
is left. -/
theorem fileLoop_aligned {base : Nat} {nodes : List Node} {index count : Nat}
    {pos : Int} (aligned : pos % base = 0)
    (enough : count ≤ base * nodes.length) :
    ∃ calls, fileLoop base nodes index pos count = some calls ∧
      Covers base (index + nodes.length) (base * index) calls count := by
  induction nodes generalizing index count pos with
  | nil =>
      obtain rfl : count = 0 := by simpa using enough
      exact ⟨[], rfl, .nil ..⟩
  | cons node rest ih =>
      have start : toInt32 (pos % base) = 0 := by
        rw [aligned]
        rfl
      have here : index < index + (node :: rest).length := by
        rw [List.length_cons]
        omega
      have place : index + 1 + rest.length = index + (node :: rest).length := by
        rw [List.length_cons]
        omega
      rw [List.length_cons, Nat.mul_succ] at enough
      rcases Nat.eq_zero_or_pos count with rfl | more
      · exact ⟨[], rfl, .nil ..⟩
      simp only [fileLoop, start, sub_zero]
      rw [if_pos (Int.natCast_pos.mpr more)]
      by_cases long : base < count
      · obtain ⟨calls, result, covers⟩ :=
          @ih (index + 1) (count - base) (pos + base)
            (by rw [Int.add_emod_right, aligned]) (by omega)
        rw [place, Nat.mul_succ] at covers
        have whole := Covers.cons here (Nat.add_zero (base * index)) (by omega) covers
        rw [Nat.add_sub_cancel' long.le] at whole
        rw [if_pos (Int.ofNat_lt.mpr long),
          show (count : Int) - base = (count - base : Nat) by omega, result]
        exact ⟨_, rfl, whole⟩
      · have whole := @Covers.cons base _ _ 0 index 0 count [] here
          (Nat.add_zero (base * index)) (by omega) (.nil ..)
        rw [if_neg (fun lt => long (Int.ofNat_lt.mp lt)), sub_self, fileLoop_done]
        exact ⟨_, rfl, whole⟩

/-- Inside a node the first round writes the rest of the node if there is a whole
node to write. -/
theorem fileLoop_inside {base : Nat} {node : Node} {rest : List Node}
    {index count offset : Nat} {pos : Int} (place : pos % base = offset)
    (small : offset < 2 ^ 31) (inside : offset < base) (long : base ≤ count)
    (enough : offset + count ≤ base * (node :: rest).length) :
    ∃ calls, fileLoop base (node :: rest) index pos count = some calls ∧
      Covers base (index + (node :: rest).length) (base * index + offset) calls
        count := by
  have here : index < index + (node :: rest).length := by
    rw [List.length_cons]
    omega
  have later : index + 1 + rest.length = index + (node :: rest).length := by
    rw [List.length_cons]
    omega
  have chunk : (if (base : Int) < count then (base : Int) else count) - offset =
      (base - offset : Nat) := by
    split <;> omega
  have aligned : (pos + (base - offset : Nat)) % base = 0 := by
    rw [← Int.emod_add_emod, place, ← Int.natCast_add,
      Nat.add_sub_cancel' inside.le, Int.emod_self]
  rw [List.length_cons, Nat.mul_succ] at enough
  obtain ⟨calls, result, covers⟩ :=
    @fileLoop_aligned base rest (index + 1) (count - (base - offset)) _ aligned
      (by omega)
  rw [later, show base * (index + 1) = base * index + offset + (base - offset) by
    rw [Nat.mul_succ]
    omega] at covers
  have whole := Covers.cons here rfl (by omega) covers
  rw [Nat.add_sub_cancel' (by omega)] at whole
  simp only [fileLoop, place, toInt32_of_small small]
  rw [if_pos (by omega), chunk,
    show (count : Int) - (base - offset : Nat) = (count - (base - offset) : Nat) by
      omega, result]
  exact ⟨_, rfl, whole⟩

namespace ByteArray

def writeToFile (ba : ByteArray) : Option (List FileWrite) :=
  fileLoop ba.baseSize ba.nodesFrom (ba.cur.getD 0) ba.position ba.getReadSize

/-- The loop ends, and writes the bytes from `m_position` up to `m_size`. -/
def Exports (ba : ByteArray) : Prop :=
  ∃ calls, ba.writeToFile = some calls ∧
    Covers ba.baseSize ba.root.length ba.position calls ba.getReadSize ∧
    gather ba.root (calls.map FileWrite.region) = ba.unread

theorem exports_of_covers {ba : ByteArray} (inv : ba.Inv) {calls : List FileWrite}
    (result : ba.writeToFile = some calls)
    (covers : Covers ba.baseSize ba.root.length ba.position calls ba.getReadSize) :
    ba.Exports := by
  refine ⟨calls, result, covers, ?_⟩
  rw [gather_spec inv.uniform covers.regions, ba.unread_eq]
  rfl

theorem writeToFile_eq {ba : ByteArray} (inv : ba.Inv)
    (inside : ba.position < ba.capacity) :
    ∃ node rest,
      ba.root.drop (ba.position / ba.baseSize) = node :: rest ∧
      ba.position / ba.baseSize + (node :: rest).length = ba.root.length ∧
      ba.writeToFile = fileLoop ba.baseSize (node :: rest)
        (ba.position / ba.baseSize) ba.position ba.getReadSize := by
  obtain ⟨node, rest, nodes⟩ := List.exists_cons_of_ne_nil (inv.from_present inside)
  have place : ba.position / ba.baseSize < ba.root.length := by
    rw [Nat.div_lt_iff_lt_mul inv.base_pos, Nat.mul_comm, ← inv.capacity_eq]
    exact inside
  have current : ba.cur = some (ba.position / ba.baseSize) := by
    rw [inv.cursor, nodeAt, if_pos place]
  refine ⟨node, rest, nodes, ?_, ?_⟩
  · rw [← nodes, List.length_drop]
    omega
  · rw [writeToFile, inv.nodesFrom_eq, nodes, current]
    rfl

/-- With less than a node to write, a walk from inside a node writes too little of
it and goes on in the next; and an offset of 2^31 or more is another `int`. -/
theorem not_exports {ba : ByteArray} (inv : ba.Inv) (more : 0 < ba.getReadSize)
    (inside : ba.position % ba.baseSize ≠ 0) (exports : ba.Exports) :
    ba.baseSize ≤ ba.getReadSize ∧ ba.position % ba.baseSize < 2 ^ 31 := by
  have order := inv.position_le
  have within := inv.size_le
  have split := Nat.div_add_mod ba.position ba.baseSize
  have below := Nat.mod_lt ba.position inv.base_pos
  obtain ⟨calls, result, ⟨diff, len, regions⟩, -⟩ := exports
  obtain ⟨node, rest, nodes, length, walk⟩ := writeToFile_eq inv (by
    unfold getReadSize at more
    omega)
  rw [walk] at result
  simp only [fileLoop] at result
  rw [if_pos (by exact_mod_cast more), ← Int.natCast_mod] at result
  obtain ⟨later, walked, rfl⟩ := Option.map_eq_some_iff.mp result
  -- The first call is for the byte of the position, which fixes its offset.
  obtain ⟨-, address, -, following⟩ := regions.uncons
  have offset : toInt32 (ba.position % ba.baseSize : Nat) =
      (ba.position % ba.baseSize : Nat) := by
    have nonneg := diff _ List.mem_cons_self
    simp only [FileWrite.region] at address nonneg
    generalize toInt32 (ba.position % ba.baseSize : Nat) = diff at address nonneg ⊢
    omega
  have small : ba.position % ba.baseSize < 2 ^ 31 := by
    have bound := toInt32_lt (ba.position % ba.baseSize : Nat)
    rw [offset] at bound
    exact_mod_cast bound
  refine ⟨?_, small⟩
  by_contra short
  have nonneg := len _ List.mem_cons_self
  rw [offset, if_neg (by omega)] at walked following nonneg
  -- As many bytes as lie before the position are left, and the next node is theirs.
  cases rest with
  | nil =>
      simp only [fileLoop] at walked
      rw [if_pos (by omega)] at walked
      cases walked
  | cons next rest =>
      simp only [fileLoop] at walked
      rw [if_pos (by omega)] at walked
      obtain ⟨calls, -, rfl⟩ := Option.map_eq_some_iff.mp walked
      obtain ⟨-, address, -, -⟩ := following.uncons
      simp only [FileWrite.region, Nat.mul_succ] at address nonneg
      omega

theorem exports_done {ba : ByteArray} (inv : ba.Inv) (none : ba.getReadSize = 0) :
    ba.Exports := by
  apply @exports_of_covers ba inv []
  · rw [writeToFile, none]
    exact fileLoop_done ..
  · rw [none]
    exact .nil ..

theorem enough_nodes {ba : ByteArray} (inv : ba.Inv) {nodes : List Node}
    (drop : ba.root.drop (ba.position / ba.baseSize) = nodes) :
    ba.position % ba.baseSize + ba.getReadSize ≤ ba.baseSize * nodes.length := by
  have order := inv.position_le
  have within := inv.size_le
  have length := inv.from_length
  rw [drop] at length
  unfold getReadSize
  omega

theorem inside_of_more {ba : ByteArray} (inv : ba.Inv) (more : 0 < ba.getReadSize) :
    ba.position < ba.capacity := by
  have within := inv.size_le
  unfold getReadSize at more
  omega

theorem exports_aligned {ba : ByteArray} (inv : ba.Inv) (more : 0 < ba.getReadSize)
    (start : ba.position % ba.baseSize = 0) : ba.Exports := by
  have split := Nat.div_add_mod ba.position ba.baseSize
  obtain ⟨node, rest, nodes, length, walk⟩ := writeToFile_eq inv (inside_of_more inv more)
  have enough := enough_nodes inv nodes
  obtain ⟨calls, result, covers⟩ :=
    @fileLoop_aligned ba.baseSize (node :: rest)
      (ba.position / ba.baseSize) ba.getReadSize ba.position
      (by rw [← Int.natCast_mod, start]; rfl) (by omega)
  rw [length, show ba.baseSize * (ba.position / ba.baseSize) = ba.position by
    omega] at covers
  exact exports_of_covers inv (walk.trans result) covers

theorem exports_rest {ba : ByteArray} (inv : ba.Inv) (more : 0 < ba.getReadSize)
    (long : ba.baseSize ≤ ba.getReadSize) (small : ba.position % ba.baseSize < 2 ^ 31) :
    ba.Exports := by
  obtain ⟨node, rest, nodes, length, walk⟩ := writeToFile_eq inv (inside_of_more inv more)
  obtain ⟨calls, result, covers⟩ :=
    @fileLoop_inside ba.baseSize node rest (ba.position / ba.baseSize)
      ba.getReadSize (ba.position % ba.baseSize) ba.position
      (Int.natCast_mod ..).symm small (Nat.mod_lt _ inv.base_pos) long
      (enough_nodes inv nodes)
  rw [length, Nat.div_add_mod] at covers
  exact exports_of_covers inv (walk.trans result) covers

/-- `writeToFile` writes what `toString` returns from the start of a node, or when
there is at least a node to write and the offset fits an `int`, or when there is
nothing to write. -/
theorem exports_iff {host : Host} {ba : ByteArray} (reachable : Reachable host ba) :
    ba.Exports ↔ ba.getReadSize = 0 ∨ ba.position % ba.baseSize = 0 ∨
      ba.baseSize ≤ ba.getReadSize ∧ ba.position % ba.baseSize < 2 ^ 31 := by
  have inv := reachable_inv reachable
  rcases Nat.eq_zero_or_pos ba.getReadSize with none | more
  · exact iff_of_true (exports_done inv none) (.inl none)
  constructor
  · intro exports
    right
    by_cases start : ba.position % ba.baseSize = 0
    · exact .inl start
    · exact .inr (not_exports inv more start exports)
  · rintro (none | start | ⟨long, small⟩)
    · exact exports_done inv none
    · exact exports_aligned inv more start
    · exact exports_rest inv more long small

/-- Two of three bytes in nodes of two, written from inside the first. -/
theorem exports_inside :
    ∃ ba : ByteArray, ba.position = 1 ∧ ba.content = [1, 2, 3] ∧ ba.Exports := by
  have started : Reachable ⟨.little, .little⟩ (new .little (fun _ => 0) 2) :=
    .start _ (.new (fun _ => 0) 2 (by decide))
  obtain ⟨ba, ran, position, size, base, content⟩ : ∃ ba : ByteArray,
      exec (fun ba op => Op.after ⟨.little, .little⟩ ba op)
        (new .little (fun _ => 0) 2) [.write [1, 2, 3], .setPosition 1] =
          some ba ∧
      ba.position = 1 ∧ ba.size = 3 ∧ ba.baseSize = 2 ∧
      ba.content = [1, 2, 3] := by
    simp only [exec, Op.after]
    exact ⟨_, rfl, rfl, rfl, rfl, rfl⟩
  refine ⟨ba, position, content, ?_⟩
  apply (exports_iff (reach_exec started ran)).mpr
  rw [getReadSize, position, size, base]
  decide

/-- Two of three bytes in one node of four: one is written, and the walk goes on
behind the node. -/
theorem exports_null :
    ∃ ba : ByteArray, Reachable ⟨.little, .little⟩ ba ∧ ba.position = 1 ∧
      ba.content = [1, 2, 3] ∧ ba.writeToFile = none ∧ ¬ba.Exports := by
  have started : Reachable ⟨.little, .little⟩ (new .little (fun _ => 0) 4) :=
    .start _ (.new (fun _ => 0) 4 (by decide))
  obtain ⟨ba, ran, position, content, fault⟩ : ∃ ba : ByteArray,
      exec (fun ba op => Op.after ⟨.little, .little⟩ ba op)
        (new .little (fun _ => 0) 4) [.write [1, 2, 3], .setPosition 1] =
          some ba ∧
      ba.position = 1 ∧ ba.content = [1, 2, 3] ∧ ba.writeToFile = none := by
    simp only [exec, Op.after]
    exact ⟨_, rfl, rfl, rfl, rfl⟩
  refine ⟨ba, reach_exec started ran, position, content, fault, ?_⟩
  rintro ⟨calls, result, -⟩
  rw [fault] at result
  cases result

end ByteArray

end Sylar
