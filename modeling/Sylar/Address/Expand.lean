import Sylar.Address.Lookup
import Sylar.Data.Colons

namespace Sylar

open Data

/-! The text of an IPv6 address, read back by the rule for double colons. -/

namespace IPv6Address

/-- The eight groups, each in the order of the network. -/
def groups (address : IPv6Address) : List Nat :=
  (List.range 8).map fun index =>
    256 * (address.m_addr.Byte.toList.getD (2 * index) 0).toNat +
      (address.m_addr.Byte.toList.getD (2 * index + 1) 0).toNat

variable {host : Host}

/-- What stands for the numbers so far: a front without zeros and perhaps zeros
that are skipped, or a double colon with more numbers behind it. -/
inductive Printed : List Nat → Text × Bool → Prop
  | skipped (front : List Nat) (missing : Nat) (nonzero : 0 ∉ front) :
      Printed (front ++ List.replicate missing 0) (join front, false)
  | compressed (front : List Nat) (missing : Nat) (back : List Nat)
      (positive : 0 < missing) (present : back ≠ []) :
      Printed (front ++ List.replicate missing 0 ++ back)
        (join front ++ ':' :: ':' :: join back, true)

section Loop

variable (host) (addr : Nat → UInt16)

/-- The number that is printed for `addr[index]`. -/
def printed (index : Nat) : Nat := (byteswapUint16 host (addr index)).toNat

/-- A zero is a zero in either byte order. -/
theorem printed_eq_zero (index : Nat) :
    printed host addr index = 0 ↔ addr index = 0 := by
  have zero : byteswapOnLittleEndian host 2 0 = 0 := by
    unfold byteswapOnLittleEndian
    cases host.byteOrder <;> rfl
  rw [printed, byteswapUint16_toNat]
  constructor
  · intro swapped
    have back : byteswapOnLittleEndian host 2
        (byteswapOnLittleEndian host 2 (addr index).toNat) =
          (addr index).toNat := by
      unfold byteswapOnLittleEndian
      cases host.byteOrder
      · exact swapBytes_swapBytes (addr index).toNat_lt
      · rfl
    rw [swapped, zero] at back
    exact UInt16.toNat_inj.mp back.symm
  · intro none_set
    rw [none_set]
    exact zero

/-- After the zeros that a double colon stands for every number is printed. -/
theorem insertGroup_used (text : Text) {i : Nat} (later : i ≠ 0) :
    insertGroup host addr (text, true) i =
      (text ++ ':' :: hexadecimal (printed host addr i), true) := by
  simp [insertGroup, later, printed]

theorem insertGroup_first (nonzero : addr 0 ≠ 0) (text : Text) :
    insertGroup host addr (text, false) 0 =
      (text ++ hexadecimal (printed host addr 0), false) := by
  simp [insertGroup, nonzero, printed]

/-- The first number behind zeros is the one that the double colon precedes. -/
theorem insertGroup_new {i : Nat} (later : i ≠ 0) (nonzero : addr i ≠ 0)
    (text : Text) :
    insertGroup host addr (text, false) i =
      if addr (i - 1) = 0 then
        (text ++ ':' :: ':' :: hexadecimal (printed host addr i), true)
      else (text ++ ':' :: hexadecimal (printed host addr i), false) := by
  by_cases zeros : addr (i - 1) = 0 <;>
    simp [insertGroup, later, nonzero, zeros, printed]

theorem printed_step {count : Nat} {os : Text × Bool}
    (before : Printed ((List.range count).map (printed host addr)) os) :
    Printed ((List.range (count + 1)).map (printed host addr))
      (insertGroup host addr os count) := by
  rw [List.range_succ, List.map_append, List.map_singleton]
  generalize seen_eq : (List.range count).map (printed host addr) = seen at before
  have length : seen.length = count := by simp [← seen_eq]
  have last : count ≠ 0 → seen.getLast? = some (printed host addr (count - 1)) := by
    intro positive
    obtain ⟨count, rfl⟩ := Nat.exists_eq_succ_of_ne_zero positive
    simp [← seen_eq, List.range_succ]
  cases before with
  | skipped front missing nonzero =>
      by_cases zero : addr count = 0
      · have value := (printed_eq_zero host addr count).mpr zero
        have skips : insertGroup host addr (join front, false) count =
            (join front, false) := by
          simp [insertGroup, zero]
        rw [skips, value, List.append_assoc, ← List.replicate_succ']
        exact .skipped front (missing + 1) nonzero
      · have value : printed host addr count ≠ 0 :=
          mt (printed_eq_zero host addr count).mp zero
        have grown : 0 ∉ front ++ [printed host addr count] := by
          simp [nonzero, Ne.symm value]
        by_cases start : count = 0
        · subst start
          obtain ⟨rfl, none_missing⟩ := List.append_eq_nil_iff.mp
            (List.length_eq_zero_iff.mp length)
          rw [insertGroup_first host addr zero, none_missing]
          simpa using Printed.skipped _ 0 grown
        · rw [insertGroup_new host addr start zero]
          have end_value := last start
          cases missing with
          | zero =>
              rw [List.replicate_zero, List.append_nil] at end_value length ⊢
              have other : addr (count - 1) ≠ 0 := by
                rw [ne_eq, ← printed_eq_zero host]
                intro same
                rw [same] at end_value
                exact nonzero (List.mem_of_getLast? end_value)
              have present : front ≠ [] := by
                rintro rfl
                cases end_value
              rw [if_neg other, ← join_snoc present]
              simpa using Printed.skipped _ 0 grown
          | succ missing =>
              have same : addr (count - 1) = 0 := by
                rw [← printed_eq_zero host]
                rw [List.replicate_succ', ← List.append_assoc,
                  List.getLast?_concat] at end_value
                exact (Option.some.inj end_value).symm
              rw [if_pos same, ← join_singleton]
              exact .compressed front _ _ (Nat.succ_pos _) (by simp)
  | compressed front missing back positive present =>
      have later : count ≠ 0 := by
        rw [← length]
        simp [present]
      have text : join front ++ ':' :: ':' :: join back ++
          ':' :: hexadecimal (printed host addr count) =
            join front ++ ':' :: ':' :: join (back ++ [printed host addr count]) := by
        rw [join_snoc present]
        simp
      rw [insertGroup_used host addr _ later, text, List.append_assoc (front ++ _)]
      exact .compressed front missing _ positive (by simp)

theorem printed_run (count : Nat) :
    Printed ((List.range count).map (printed host addr))
      ((List.range count).foldl (insertGroup host addr) ([], false)) := by
  induction count with
  | zero => exact .skipped [] 0 (by simp)
  | succ count ih =>
      rw [List.range_succ (n := count), List.foldl_append]
      rw [← List.range_succ]
      exact printed_step host addr ih

end Loop

theorem bytes_drop (address : IPv6Address) {index : Nat} (inside : index < 8) :
    (address.m_addr.Byte.toList.drop (2 * index)).take 2 =
      [address.m_addr.Byte.toList.getD (2 * index) 0,
        address.m_addr.Byte.toList.getD (2 * index + 1) 0] := by
  have length : address.m_addr.Byte.toList.length = 16 := by simp
  generalize address.m_addr.Byte.toList = bytes at length ⊢
  have low : 2 * index < bytes.length := by omega
  have high : 2 * index + 1 < bytes.length := by omega
  rw [List.drop_eq_getElem_cons low, List.drop_eq_getElem_cons high,
    List.getD_eq_getElem?_getD, List.getD_eq_getElem?_getD,
    List.getElem?_eq_getElem low, List.getElem?_eq_getElem high]
  rfl

/-- The numbers that are printed are the groups in the order of the network. -/
theorem printed_addr (matching : host.byteOrder = host.memory)
    (address : IPv6Address) :
    (List.range 8).map (printed host (address.addr host)) = address.groups := by
  apply List.map_congr_left
  intro index inside
  have bytes := address.bytes_drop (List.mem_range.mp inside)
  rw [printed, byteswapUint16_toNat, addr, bytes]
  generalize address.m_addr.Byte.toList.getD (2 * index) 0 = first
  generalize address.m_addr.Byte.toList.getD (2 * index + 1) 0 = second
  have small : host.load [first, second] < UInt16.size := by
    simpa using host.load_lt [first, second]
  have swapped := byteswapOnLittleEndian_load matching [first, second]
  rw [UInt16.toNat_ofNat_of_lt' small]
  calc byteswapOnLittleEndian host 2 (host.load [first, second])
      = ofLeBytes [second, first] := swapped
    _ = 256 * first.toNat + second.toNat := by
        simp only [ofLeBytes]
        omega

@[simp] theorem groups_length (address : IPv6Address) :
    address.groups.length = 8 := by
  simp [groups]

theorem groups_lt (address : IPv6Address) :
    ∀ group ∈ address.groups, group < 2 ^ 16 := by
  intro group member
  obtain ⟨index, -, rfl⟩ := List.mem_map.mp member
  have high := (address.m_addr.Byte.toList.getD (2 * index) 0).toNat_lt
  have low := (address.m_addr.Byte.toList.getD (2 * index + 1) 0).toNat_lt
  omega

theorem groups_injective {address other : IPv6Address}
    (same : other.groups = address.groups) :
    other.m_addr.Byte = address.m_addr.Byte := by
  have pairs : ∀ index < 8,
      other.m_addr.Byte.toList.getD (2 * index) 0 =
          address.m_addr.Byte.toList.getD (2 * index) 0 ∧
        other.m_addr.Byte.toList.getD (2 * index + 1) 0 =
          address.m_addr.Byte.toList.getD (2 * index + 1) 0 := by
    intro index inside
    have value := List.map_inj_left.mp same index (List.mem_range.mpr inside)
    have left := (other.m_addr.Byte.toList.getD (2 * index + 1) 0).toNat_lt
    have right := (address.m_addr.Byte.toList.getD (2 * index + 1) 0).toNat_lt
    constructor <;> apply UInt8.toNat_inj.mp <;> omega
  ext index inside
  have here := pairs (index / 2) (by omega)
  obtain even | odd := Nat.mod_two_eq_zero_or_one index
  · have place : 2 * (index / 2) = index := by omega
    simpa [place, inside] using congrArg UInt8.toNat here.1
  · have place : 2 * (index / 2) + 1 = index := by omega
    simpa [place, inside] using congrArg UInt8.toNat here.2

/-- What the loop leaves, with the double colon behind it where the numbers end
in zeros that nothing stands for yet. -/
theorem Printed.expand {values : List Nat} {os : Text × Bool}
    (written : Printed values os) (small : ∀ value ∈ values, value < 2 ^ 16) :
    let text := if !os.2 ∧ values.getLast? = some 0 then os.1 ++ [':', ':'] else os.1
    doubles text ≤ 1 ∧ expand values.length text = some values := by
  cases written with
  | skipped front missing nonzero =>
      rw [List.forall_mem_append] at small
      cases missing with
      | zero =>
          have other : front.getLast? ≠ some 0 :=
            fun last => nonzero (List.mem_of_getLast? last)
          have single := (join_spec front).1
          simp [other, single, expand_join small.1]
      | succ missing =>
          have last : (front ++ List.replicate (missing + 1) 0).getLast? = some 0 := by
            rw [List.replicate_succ', ← List.append_assoc, List.getLast?_concat]
          have single := doubles_double front []
          have groups := @expand_double front [] (missing + 1)
            (Nat.succ_pos missing) small.1 (by simp)
          simp only [join_nil, List.length_nil, Nat.add_zero, List.append_nil]
            at single groups
          simp [last, single, groups]
  | compressed front missing back positive present =>
      rw [List.forall_mem_append, List.forall_mem_append] at small
      have single := doubles_double front back
      have groups := expand_double positive small.1.1 small.2
      rw [List.append_assoc, Nat.add_assoc] at groups
      simp [single, groups]

theorem text_expand (matching : host.byteOrder = host.memory)
    (address : IPv6Address) :
    doubles (address.text host) ≤ 1 ∧
      expand 8 (address.text host) = some address.groups := by
  have run := printed_run host (address.addr host) 8
  rw [printed_addr matching] at run
  have last : address.groups.getLast? = some 0 ↔ address.addr host 7 = 0 := by
    rw [← printed_addr matching, ← printed_eq_zero host]
    exact Option.some_inj
  have read := run.expand address.groups_lt
  simp only [last, groups_length] at read
  exact read

theorem text_faithful (matching : host.byteOrder = host.memory)
    (address : IPv6Address) :
    doubles (address.text host) ≤ 1 ∧
      expand 8 (address.text host) = some address.groups ∧
      ∀ other : IPv6Address, other.m_addr.Byte ≠ address.m_addr.Byte →
        other.text host ≠ address.text host := by
  obtain ⟨single, expanded⟩ := text_expand matching address
  refine ⟨single, expanded, ?_⟩
  intro other different same
  obtain ⟨-, read⟩ := text_expand matching other
  rw [same, expanded] at read
  exact different (groups_injective (Option.some.inj read).symm)

/-- Two runs of zeros, of which the double colon takes the first. -/
def twoRuns : IPv6Address :=
  ⟨⟨AF_INET6, 0, 0, #v[0x20, 1, 0, 0, 0, 0, 0, 1, 0, 0, 0, 0, 0, 0, 0, 1], 0⟩⟩

theorem text_faithful_twoRuns :
    twoRuns.text ⟨.little, .little⟩ = "2001::1:0:0:0:1".toList ∧
      doubles (twoRuns.text ⟨.little, .little⟩) ≤ 1 ∧
      expand 8 (twoRuns.text ⟨.little, .little⟩) =
        some [0x2001, 0, 0, 1, 0, 0, 0, 1] := by
  obtain ⟨single, expanded, -⟩ := @text_faithful ⟨.little, .little⟩ rfl twoRuns
  exact ⟨by decide +kernel, single, expanded⟩

end IPv6Address

end Sylar
