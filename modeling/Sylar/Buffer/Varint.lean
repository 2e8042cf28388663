import Mathlib.Data.Nat.Digits.Defs
import Sylar.Buffer.Numbers
import Sylar.Buffer.Reachable

namespace Sylar

open Logic Data

/-! What the varint readers make of any bytes. -/

/-- The first bytes of `rest` that a varint takes: up to the first one below
0x80, but not more than `limit`. -/
structure Varint (limit : Nat) (rest taken : Bytes) : Prop where
  first : taken <+: rest
  present : taken ≠ []
  bounded : taken.length ≤ limit
  continued : ∀ b ∈ taken.dropLast, 0x80 ≤ b
  ended : taken.length = limit ∨ ∃ b ∈ taken.getLast?, b < 0x80

/-- Seven bits a byte, the lowest first. -/
def payload (taken : Bytes) : Nat :=
  Nat.ofDigits (2 ^ 7) (taken.map fun b => b.toNat % 2 ^ 7)

theorem payload_cons (b : UInt8) (later : Bytes) :
    payload (b :: later) = b.toNat % 2 ^ 7 + 2 ^ 7 * payload later := by
  simp [payload, Nat.ofDigits_cons]

namespace Varint

variable {limit : Nat} {b : UInt8} {rest taken : Bytes}

/-- A byte that ends the varint, or the last that may be read. -/
theorem single (last : b < 0x80 ∨ limit = 0) : Varint (limit + 1) (b :: rest) [b] where
  first := by simp
  present := by simp
  bounded := by simp
  continued := by simp
  ended := by
    rcases last with ends | rfl
    · exact .inr ⟨b, rfl, ends⟩
    · exact .inl rfl

theorem cons (goes : 0x80 ≤ b) (later : Varint limit rest taken) :
    Varint (limit + 1) (b :: rest) (b :: taken) where
  first := (List.prefix_cons_inj b).mpr later.first
  present := by simp
  bounded := Nat.succ_le_succ later.bounded
  continued := by
    rw [List.dropLast_cons_of_ne_nil later.present]
    exact List.forall_mem_cons.mpr ⟨goes, later.continued⟩
  ended := by
    refine later.ended.imp (congrArg Nat.succ) ?_
    rintro ⟨last, found, ends⟩
    refine ⟨last, ?_, ends⟩
    rw [List.getLast?_cons_of_ne_nil later.present]
    exact found

theorem head (varint : Varint (limit + 1) rest taken) :
    ∃ b after, rest = b :: after ∧
      (taken = [b] ∧ (b < 0x80 ∨ limit = 0) ∨
        ∃ later, taken = b :: later ∧ 0x80 ≤ b ∧ Varint limit after later) := by
  obtain ⟨b, later, rfl⟩ := List.exists_cons_of_ne_nil varint.present
  obtain ⟨after, rfl⟩ := varint.first
  refine ⟨b, later ++ after, rfl, ?_⟩
  have bounded := varint.bounded
  have continued := varint.continued
  have ended := varint.ended
  rcases List.eq_nil_or_concat later with rfl | ⟨front, last, shape⟩
  · left
    refine ⟨rfl, ?_⟩
    rcases ended with full | ⟨last, found, ends⟩
    · exact .inr (Nat.succ.inj full.symm)
    · cases found
      exact .inl ends
  · right
    have some_later : later ≠ [] := by simp [shape]
    rw [List.dropLast_cons_of_ne_nil some_later] at continued
    rw [List.getLast?_cons_of_ne_nil some_later] at ended
    obtain ⟨goes, others⟩ := List.forall_mem_cons.mp continued
    exact ⟨later, rfl, goes, List.prefix_append _ _, some_later,
      Nat.le_of_succ_le_succ bounded, others, ended.imp_left Nat.succ.inj⟩

/-- There is a varint, or the bytes run out before its end. -/
theorem present_or_short (limit : Nat) (rest : Bytes) :
    (∃ taken, Varint (limit + 1) rest taken) ∨
      rest.length < limit + 1 ∧ ∀ b ∈ rest, 0x80 ≤ b := by
  induction limit generalizing rest with
  | zero =>
      cases rest with
      | nil => exact .inr ⟨Nat.zero_lt_one, nofun⟩
      | cons b rest => exact .inl ⟨[b], single (.inr rfl)⟩
  | succ limit ih =>
      cases rest with
      | nil => exact .inr ⟨Nat.succ_pos _, nofun⟩
      | cons b rest =>
          by_cases ends : b < 0x80
          · exact .inl ⟨[b], single (.inl ends)⟩
          · have goes := UInt8.not_lt.mp ends
            rcases ih rest with ⟨taken, later⟩ | ⟨short, others⟩
            · exact .inl ⟨b :: taken, later.cons goes⟩
            · exact .inr ⟨Nat.succ_lt_succ short,
                List.forall_mem_cons.mpr ⟨goes, others⟩⟩

end Varint

/-- Bits are added above those that are there; those beyond the width are
lost. -/
theorem or_shifted_mod {result bits shift : Nat} (group : Nat)
    (below : result < 2 ^ shift) (inside : shift ≤ bits) :
    result ||| (group <<< shift) % 2 ^ bits =
      (result + group * 2 ^ shift) % 2 ^ bits := by
  obtain ⟨width, rfl⟩ := Nat.exists_eq_add_of_le' inside
  have kept : group * 2 ^ shift % 2 ^ (width + shift) =
      group % 2 ^ width * 2 ^ shift := by
    rw [Nat.pow_add, Nat.mul_mod_mul_right]
  have room : group % 2 ^ width * 2 ^ shift + 2 ^ shift ≤
      2 ^ (width + shift) := by
    rw [← Nat.succ_mul, Nat.pow_add]
    exact Nat.mul_le_mul_right _ (Nat.mod_lt _ (Nat.two_pow_pos _))
  calc
    _ = result ||| (group % 2 ^ width) <<< shift := by
      rw [Nat.shiftLeft_eq, kept, ← Nat.shiftLeft_eq]
    _ = result + group % 2 ^ width * 2 ^ shift := by
      rw [Nat.or_comm, ← Nat.shiftLeft_add_eq_or_of_lt below, Nat.shiftLeft_eq,
        Nat.add_comm]
    _ = (result + group * 2 ^ shift) % 2 ^ (width + shift) := by
      rw [← Nat.add_mod_mod, kept]
      exact (Nat.mod_eq_of_lt (Nat.lt_of_lt_of_le
        (Nat.add_lt_add_right below _) (Nat.add_comm _ _ ▸ room))).symm

theorem and_low_bits (b : UInt8) : (b &&& 0x7f).toNat = b.toNat % 2 ^ 7 := by
  rw [UInt8.toNat_and]
  exact Nat.and_two_pow_sub_one_eq_mod b.toNat 7

namespace ByteArray

variable {ba : ByteArray} {b : UInt8} {rest taken : Bytes}

theorem moveTo_moveTo {v : Nat} (inside : v ≤ ba.size) (w : Nat) :
    (ba.moveTo v).moveTo w = ba.moveTo w := by
  simp only [moveTo, if_neg (Nat.not_lt.mpr inside)]
  rfl

theorem readFuint8_cons (inv : ba.Inv) (unread : ba.unread = b :: rest) :
    readFuint8 ba = .done b (ba.moveTo (ba.position + 1)) ∧
      ba.position + 1 ≤ ba.size ∧ (ba.moveTo (ba.position + 1)).Inv ∧
      (ba.moveTo (ba.position + 1)).unread = rest := by
  have left := inv.unread_length
  rw [unread, List.length_cons, getReadSize] at left
  have within := inv.size_le
  have first : ((memory ba.root).drop ba.position).take 1 = [b] := by
    have taken := congrArg (List.take 1) unread
    rwa [unread_eq, List.take_take, Nat.min_eq_left (by omega)] at taken
  have enough : 1 ≤ ba.getReadSize := by
    unfold getReadSize
    omega
  have result := read_spec inv enough (by omega)
  rw [first] at result
  refine ⟨Prog.bind_done result, by omega, inv.moveTo (by omega), ?_⟩
  have stays : (ba.moveTo (ba.position + 1)).size = ba.size :=
    if_neg (by omega)
  rw [ByteArray.unread, content, stays]
  change (content ba).drop (ba.position + 1) = rest
  rw [← List.drop_drop]
  change ba.unread.drop 1 = rest
  rw [unread]
  rfl

theorem readFuint8_nil (inv : ba.Inv) (unread : ba.unread = []) :
    ∃ what, readFuint8 ba = .raise (.outOfRange what) ba := by
  have left := inv.unread_length
  rw [unread] at left
  have short : ba.getReadSize < 1 := by
    rw [← left]
    exact Nat.zero_lt_one
  obtain ⟨error, result⟩ := read_short ba short
  cases error with
  | outOfRange what => exact ⟨what, by rw [readFuint8, Prog.bind_apply, result]⟩

/-- The loop adds what it takes to the `result` below `shift`. -/
theorem readVarint_done {bits limit shift result : Nat}
    (below : result < 2 ^ shift) (inside : shift + 7 * limit < bits + 7)
    (inv : ba.Inv) (varint : Varint limit ba.unread taken) :
    readVarint bits (List.range' shift limit 7) result ba =
      .done ((result + payload taken * 2 ^ shift) % 2 ^ bits)
        (ba.moveTo (ba.position + taken.length)) := by
  induction limit generalizing shift result taken ba with
  | zero =>
      exact absurd (List.length_eq_zero_iff.mp
        (Nat.le_zero.mp varint.bounded)) varint.present
  | succ limit ih =>
      obtain ⟨b, rest, unread, shape⟩ := varint.head
      obtain ⟨read, within, moved, left⟩ := readFuint8_cons inv unread
      have group : payload [b] = b.toNat % 2 ^ 7 := by simp [payload]
      rw [List.range'_succ, readVarint, Prog.bind_done read]
      rcases shape with ⟨rfl, last⟩ | ⟨later, rfl, goes, following⟩
      · rw [group]
        split
        · rename_i ends
          have low : b.toNat % 2 ^ 7 = b.toNat :=
            Nat.mod_eq_of_lt (UInt8.lt_iff_toNat_lt.mp ends)
          rw [low, or_shifted_mod b.toNat below (by omega)]
          rfl
        · rename_i goes
          obtain rfl := last.resolve_left goes
          rw [and_low_bits, or_shifted_mod _ below (by omega)]
          rfl
      · rw [if_neg (UInt8.not_lt.mpr goes), and_low_bits,
          or_shifted_mod _ below (by omega)]
        have above : (result + b.toNat % 2 ^ 7 * 2 ^ shift) % 2 ^ bits <
            2 ^ (shift + 7) := by
          have small : b.toNat % 2 ^ 7 < 2 ^ 7 := Nat.mod_lt _ (by decide)
          have group := Nat.mul_le_mul_right (2 ^ shift) small
          rw [Nat.succ_mul, Nat.mul_comm (2 ^ 7), ← Nat.pow_add] at group
          exact (Nat.mod_le _ _).trans_lt (by omega)
        have total : result + b.toNat % 2 ^ 7 * 2 ^ shift +
            payload later * 2 ^ (shift + 7) =
              result + payload (b :: later) * 2 ^ shift := by
          rw [payload_cons, Nat.pow_add, Nat.add_mul, Nat.add_assoc,
            Nat.mul_comm (2 ^ 7), Nat.mul_comm (2 ^ shift) (2 ^ 7),
            ← Nat.mul_assoc]
        rw [ih above (by omega) moved (left ▸ following), Nat.mod_add_mod, total,
          moveTo_moveTo within, List.length_cons, Nat.add_comm later.length,
          ← Nat.add_assoc]
        rfl

/-- Bytes that all go on are read to their end. -/
theorem readVarint_short {bits limit shift result : Nat} (inv : ba.Inv)
    (short : ba.unread.length < limit) (goes : ∀ b ∈ ba.unread, 0x80 ≤ b) :
    ∃ what after, readVarint bits (List.range' shift limit 7) result ba =
      .raise (.outOfRange what) after := by
  induction limit generalizing shift result ba with
  | zero => exact absurd short (Nat.not_lt_zero _)
  | succ limit ih =>
      rw [List.range'_succ, readVarint]
      cases unread : ba.unread with
      | nil =>
          obtain ⟨what, result⟩ := readFuint8_nil inv unread
          exact ⟨what, ba, by rw [Prog.bind_apply, result]⟩
      | cons b rest =>
          obtain ⟨read, -, moved, left⟩ := readFuint8_cons inv unread
          rw [unread] at short goes
          obtain ⟨here, later⟩ := List.forall_mem_cons.mp goes
          rw [Prog.bind_done read, if_neg (UInt8.not_lt.mpr here)]
          apply ih moved
          · rw [left]
            exact Nat.lt_of_succ_lt_succ short
          · rwa [left]

/-- A reader takes the varint that is there, of at most `limit` bytes, and
throws exactly when the bytes run out before its end. -/
def Decodes (read : Method α) (limit : Nat) (convert : Nat → α)
    (ba : ByteArray) : Prop :=
  (∀ taken, Varint limit ba.unread taken →
    read ba = .done (convert (payload taken))
      (ba.moveTo (ba.position + taken.length))) ∧
  ((∃ what after, read ba = .raise (.outOfRange what) after) ↔
    ¬∃ taken, Varint limit ba.unread taken)

/-- The values of `i` in `for (int i = start; i < width; i += 7)`. -/
def shifts (width start : Nat) : List Nat :=
  if start < width then start :: shifts width (start + 7) else []
termination_by width - start

theorem shifts_below (width start : Nat) :
    ∀ i ∈ shifts width start, i < width := by
  fun_induction shifts width start with
  | case1 start below ih =>
      intro i member
      rcases List.mem_cons.mp member with rfl | later
      · exact below
      · exact ih i later
  | case2 start above => nofun

theorem readVarint_decodes {bits limit : Nat} (inside : 7 * limit < bits)
    (inv : ba.Inv) {convert : Nat → α}
    (reduces : ∀ value, convert (value % 2 ^ bits) = convert value) :
    Decodes (readVarint bits (List.range' 0 (limit + 1) 7) 0 >>= fun value =>
      pure (convert value)) (limit + 1) convert ba := by
  have taken_of : ∀ taken, Varint (limit + 1) ba.unread taken →
      (readVarint bits (List.range' 0 (limit + 1) 7) 0 >>= fun value =>
        pure (convert value)) ba =
          .done (convert (payload taken))
            (ba.moveTo (ba.position + taken.length)) := by
    intro taken varint
    have result := readVarint_done (Nat.two_pow_pos 0 : 0 < 2 ^ 0)
      (by omega : 0 + 7 * (limit + 1) < bits + 7) inv varint
    rw [Prog.bind_done result, Nat.zero_add, Nat.pow_zero, Nat.mul_one]
    exact congrArg (Outcome.done · _) (reduces _)
  refine ⟨taken_of, ?_⟩
  constructor
  · rintro ⟨what, after, thrown⟩ ⟨taken, varint⟩
    rw [taken_of taken varint] at thrown
    cases thrown
  · intro absent
    obtain ⟨short, goes⟩ :=
      (Varint.present_or_short limit ba.unread).resolve_left absent
    obtain ⟨what, after, thrown⟩ := @readVarint_short ba bits _ 0 0 inv short goes
    exact ⟨what, after, by rw [Prog.bind_apply, thrown]⟩

theorem varints_exact {host : Host} (reachable : Reachable host ba) :
    Decodes readUint32 5 UInt32.ofNat ba ∧
      Decodes readUint64 10 UInt64.ofNat ba ∧
      (readUint32 = do pure (UInt32.ofNat (← readVarint 32 (shifts 32 0) 0))) ∧
      (readUint64 = do pure (UInt64.ofNat (← readVarint 64 (shifts 64 0) 0))) ∧
      (∀ i ∈ shifts 32 0, i < 32) ∧ ∀ i ∈ shifts 64 0, i < 64 := by
  have inv := reachable_inv reachable
  refine ⟨?_, ?_, ?_, ?_, shifts_below 32 0, shifts_below 64 0⟩
  · apply readVarint_decodes (by decide : 7 * 4 < 32) inv
    intro value
    apply UInt32.toNat_inj.mp
    simp
  · apply readVarint_decodes (by decide : 7 * 9 < 64) inv
    intro value
    apply UInt64.toNat_inj.mp
    simp
  · have all : shifts 32 0 = [0, 7, 14, 21, 28] := by simp [shifts]
    rw [all]
    rfl
  · have all : shifts 64 0 = [0, 7, 14, 21, 28, 35, 42, 49, 56, 63] := by
      simp [shifts]
    rw [all]
    rfl

/-- Five bytes over nodes of two, the last of which has bits beyond the 32nd. -/
theorem varints_exact_overlong :
    ∃ ba : ByteArray, ba.root.length = 3 ∧
      ba.unread = [0xff, 0xff, 0xff, 0xff, 0x7f, 1] ∧
      Decodes readUint32 5 UInt32.ofNat ba ∧
      Decodes readUint64 10 UInt64.ofNat ba := by
  have started : Reachable ⟨.little, .little⟩ (new .little (fun _ => 0) 2) :=
    .start _ (.new (fun _ => 0) 2 (by decide))
  obtain ⟨ba, ran, nodes, unread⟩ : ∃ ba : ByteArray,
      exec (fun ba op => Op.after ⟨.little, .little⟩ ba op)
        (new .little (fun _ => 0) 2)
        [.write [0xff, 0xff, 0xff, 0xff, 0x7f, 1], .setPosition 0] = some ba ∧
      ba.root.length = 3 ∧
      ba.unread = [0xff, 0xff, 0xff, 0xff, 0x7f, 1] := by
    simp only [exec, Op.after]
    exact ⟨_, rfl, rfl, rfl⟩
  obtain ⟨short, long, -⟩ := varints_exact (reach_exec started ran)
  exact ⟨ba, nodes, unread, short, long⟩

end ByteArray

end Sylar
