import Sylar.Data.Bits
import Sylar.Address.Model

namespace Sylar

open Data

namespace Host

/-- The place in a stored number of the bit that is read at `index`. -/
def place (host : Host) (width index : Nat) : Nat :=
  match host.memory with
  | .little => 8 * (index / 8) + (7 - index % 8)
  | .big => 8 * width - 1 - index

theorem place_lt (host : Host) {width index : Nat}
    (inside : index < 8 * width) : host.place width index < 8 * width := by
  unfold place
  cases host.memory <;> simp only <;> omega

theorem place_place (host : Host) {width index : Nat}
    (inside : index < 8 * width) :
    host.place width (host.place width index) = index := by
  unfold place
  cases host.memory <;> simp only <;> omega

theorem bitAt_store (host : Host) (value : Nat) {width index : Nat}
    (inside : index < 8 * width) :
    bitAt (host.store width value) index =
      value.testBit (host.place width index) := by
  unfold store place
  cases host.memory
  · exact bitAt_leBytes value inside
  · exact bitAt_leBytes_reverse value inside

/-- What a matching host stores after `byteswapOnLittleEndian` is in the order
of the network. -/
theorem bitAt_swapped {host : Host} (matching : host.byteOrder = host.memory)
    (value : Nat) {width index : Nat} (inside : index < 8 * width) :
    bitAt (host.store width (byteswapOnLittleEndian host width value)) index =
      value.testBit (8 * width - 1 - index) := by
  rw [← bitAt_leBytes_reverse value inside]
  congr 1
  unfold byteswapOnLittleEndian store
  rw [matching]
  cases host.memory
  · have back := leBytes_ofLeBytes (leBytes width value).reverse
    rwa [List.length_reverse, leBytes_length] at back
  · rfl

end Host

/-- The mask that `CreateMask` gives has the bits after the first `bits`. -/
theorem createMask_eq {width : Nat} {bits : UInt32} (narrow : width ≤ 32)
    (inside : bits.toNat ≤ width) (short : width - bits.toNat < 32) :
    ∃ mask, createMask width bits = some mask ∧
      ∀ index < width, mask.getLsbD index =
        decide (index < width - bits.toNat) := by
  have shift : (UInt64.ofNat width - bits.toUInt64).toNat =
      width - bits.toNat := by
    rw [UInt64.toNat_sub_of_le]
    · simp; omega
    · rw [UInt64.le_iff_toNat_le]
      simp; omega
  refine ⟨_, if_pos (UInt64.lt_iff_toNat_lt.mpr (by rw [shift]; exact short)),
    ?_⟩
  intro index below
  have value : ((1#32 <<< (width - bits.toNat)) - 1#32).toNat =
      2 ^ (width - bits.toNat) - 1 := by
    have power : 2 ^ (width - bits.toNat) < 4294967296 :=
      @Nat.pow_lt_pow_right 2 _ 32 (by omega) short
    have positive : 0 < 2 ^ (width - bits.toNat) := Nat.two_pow_pos _
    rw [BitVec.toNat_sub_of_le]
    · simp [Nat.shiftLeft_eq, Nat.mod_eq_of_lt power]
    · rw [BitVec.le_def]
      simp [Nat.shiftLeft_eq, Nat.mod_eq_of_lt power]
      omega
  rw [shift, BitVec.getLsbD_setWidth, BitVec.getLsbD, value,
    Nat.testBit_two_pow_sub_one]
  simp [below]

/-- Without a prefix the shift is by the width of an `int`. -/
theorem createMask_zero : createMask 32 0 = none := by decide

namespace IPv4Address

variable {host : Host} {prefix_len : UInt32}

/-- The bits of the host part, as they lie in memory. -/
theorem mask_spec (matching : host.byteOrder = host.memory)
    (some_bits : 1 ≤ prefix_len.toNat) (inside : prefix_len.toNat ≤ 32) :
    ∃ mask : BitVec 32, createMask 32 prefix_len = some mask ∧
      ∀ index < 32,
        (byteswapUint32 host ⟨mask⟩).toNat.testBit (host.place 4 index) =
          !decide (index < prefix_len.toNat) := by
  obtain ⟨mask, made, bits⟩ := createMask_eq (Nat.le_refl 32) inside (by omega)
  refine ⟨mask, made, ?_⟩
  intro index below
  have value : (byteswapUint32 host ⟨mask⟩).toNat =
      byteswapOnLittleEndian host 4 mask.toNat :=
    UInt32.toNat_ofNat_of_lt' (byteswapOnLittleEndian_lt host mask.isLt)
  rw [value, ← host.bitAt_store _ below, Host.bitAt_swapped matching _ below]
  change mask.getLsbD (8 * 4 - 1 - index) = _
  rw [bits _ (by omega)]
  by_cases before : index < prefix_len.toNat
  · simp [before]
    omega
  · simp [before]
    omega

theorem not_longer (inside : prefix_len.toNat ≤ 32) : ¬ prefix_len > 32 := by
  rw [gt_iff_lt, UInt32.lt_iff_toNat_lt]
  exact Nat.not_lt.mpr inside

theorem bits_of_place (host : Host) (value : UInt32) {index : Nat}
    (below : index < 32) :
    bitAt (host.store 4 value.toNat) index =
      value.toBitVec.getLsbD (host.place 4 index) :=
  host.bitAt_store _ below

theorem subnetMask_spec (matching : host.byteOrder = host.memory)
    (some_bits : 1 ≤ prefix_len.toNat) (inside : prefix_len.toNat ≤ 32) :
    ∃ subnet, subnetMask host prefix_len = some (some subnet) ∧
      ∀ index < 32, bitAt (host.store 4 subnet.m_addr.S_addr.toNat) index =
        decide (index < prefix_len.toNat) := by
  obtain ⟨mask, made, bits⟩ := mask_spec matching some_bits inside
  refine ⟨_, by rw [subnetMask, made]; rfl, ?_⟩
  intro index below
  have inner : host.place 4 index < 32 := host.place_lt (by omega)
  have bit := bits index below
  rw [bits_of_place host _ below]
  simp only [UInt32.toBitVec_not, BitVec.getLsbD_not, inner, decide_true,
    Bool.true_and]
  change (!(byteswapUint32 host ⟨mask⟩).toNat.testBit (host.place 4 index)) = _
  rw [bit, Bool.not_not]

theorem some_bits_of_subnetMask {subnet : Option IPv4Address}
    (masked : subnetMask host prefix_len = some subnet) :
    1 ≤ prefix_len.toNat := by
  by_contra none_left
  have zero : prefix_len = 0 := UInt32.toNat_inj.mp (by simp; omega)
  rw [subnetMask, zero, createMask_zero] at masked
  cases masked

theorem broadcastAddress_spec (matching : host.byteOrder = host.memory)
    (some_bits : 1 ≤ prefix_len.toNat) (inside : prefix_len.toNat ≤ 32)
    (address : IPv4Address) :
    ∃ S_addr, address.broadcastAddress host prefix_len =
        some (some ⟨{ address.m_addr with S_addr }⟩) ∧
      ∀ index < 32, bitAt (host.store 4 S_addr.toNat) index =
        (bitAt (host.store 4 address.m_addr.S_addr.toNat) index ||
          !decide (index < prefix_len.toNat)) := by
  obtain ⟨mask, made, bits⟩ := mask_spec matching some_bits inside
  refine ⟨_, by rw [broadcastAddress, if_neg (not_longer inside), made]; rfl, ?_⟩
  intro index below
  rw [← bits index below, bits_of_place host _ below,
    bits_of_place host _ below, UInt32.toBitVec_or, BitVec.getLsbD_or]
  rfl

theorem networdAddress_spec (matching : host.byteOrder = host.memory)
    (some_bits : 1 ≤ prefix_len.toNat) (inside : prefix_len.toNat ≤ 32)
    (address : IPv4Address) :
    ∃ S_addr, address.networdAddress host prefix_len =
        some (some ⟨{ address.m_addr with S_addr }⟩) ∧
      ∀ index < 32, bitAt (host.store 4 S_addr.toNat) index =
        (bitAt (host.store 4 address.m_addr.S_addr.toNat) index &&
          !decide (index < prefix_len.toNat)) := by
  obtain ⟨mask, made, bits⟩ := mask_spec matching some_bits inside
  refine ⟨_, by rw [networdAddress, if_neg (not_longer inside), made]; rfl, ?_⟩
  intro index below
  rw [← bits index below, bits_of_place host _ below,
    bits_of_place host _ below, UInt32.toBitVec_and, BitVec.getLsbD_and]
  rfl

/-- An address none of whose bits is set is zero. -/
theorem eq_zero_of_bits (host : Host) {value : UInt32}
    (clear : ∀ index < 32, bitAt (host.store 4 value.toNat) index = false) :
    value = 0 := by
  apply UInt32.toBitVec_inj.mp
  apply BitVec.eq_of_getLsbD_eq
  intro index below
  have placed := clear (host.place 4 index) (host.place_lt below)
  rw [bits_of_place host _ (host.place_lt below), host.place_place below] at placed
  rw [placed]
  simp

end IPv4Address

namespace IPv6Address

theorem bitAt_toList (bytes : Vector UInt8 16) {index : Nat}
    (inside : index / 8 < 16) :
    bitAt bytes.toList index =
      bytes[index / 8].toBitVec.getLsbD (7 - index % 8) := by
  have within : index / 8 < bytes.toList.length := by simpa using inside
  rw [bitAt, List.getD_eq_getElem?_getD, List.getElem?_eq_getElem within]
  rfl

theorem fill_spec (byte : UInt8) (indices : List Nat)
    (inside : ∀ index ∈ indices, index < 16) (bytes : Vector UInt8 16) :
    ∃ filled, fill byte bytes indices = some filled ∧
      ∀ index (below : index < 16), filled[index] =
        if index ∈ indices then byte else bytes[index] := by
  induction indices generalizing bytes with
  | nil => exact ⟨bytes, rfl, fun index below => by simp⟩
  | cons first rest ih =>
      have here := inside first (List.mem_cons_self)
      obtain ⟨filled, done, values⟩ :=
        ih (fun index member => inside index (List.mem_cons_of_mem _ member))
          (bytes.set first byte)
      refine ⟨filled, ?_, ?_⟩
      · rw [fill, List.foldlM_cons, update, dif_pos here]
        exact done
      · intro index below
        rw [values index below, Vector.getElem_set]
        by_cases later : index ∈ rest
        · simp [later]
        · by_cases same : first = index
          · simp [same]
          · simp [later, same, Ne.symm same]

/-- The mask of the byte in which the prefix ends. -/
theorem mask_spec (prefix_len : UInt32) :
    ∃ mask : BitVec 8, createMask 8 (prefix_len % 8) = some mask ∧
      ∀ index < 8, mask.getLsbD (7 - index) =
        !decide (index < prefix_len.toNat % 8) := by
  have rest : (prefix_len % 8).toNat = prefix_len.toNat % 8 := by simp
  obtain ⟨mask, made, bits⟩ := @createMask_eq 8 (prefix_len % 8) (by omega)
    (by omega) (by omega)
  refine ⟨mask, made, ?_⟩
  intro index below
  rw [bits _ (by omega), rest]
  by_cases before : index < prefix_len.toNat % 8
  · simp [before]
    omega
  · simp [before]
    omega

/-- One byte changes, those at `indices` become `byte`, the others stay. -/
theorem update_fill {bytes : Vector UInt8 16} {q : Nat} (inside : q < 16)
    (f : UInt8 → UInt8) (byte : UInt8) {indices : List Nat}
    (within : ∀ index ∈ indices, index < 16) (other : q ∉ indices) :
    ∃ filled, (∀ {β} (next : Vector UInt8 16 → Option β), (do
        let bytes ← update bytes q f
        let bytes ← fill byte bytes indices
        next bytes) = next filled) ∧
      ∀ index (below : index < 16),
        (index = q → filled[index] = f bytes[index]) ∧
        (index ∈ indices → filled[index] = byte) ∧
        (index ≠ q → index ∉ indices → filled[index] = bytes[index]) := by
  obtain ⟨filled, done, values⟩ :=
    fill_spec byte indices within (bytes.set q (f bytes[q]))
  refine ⟨filled, ?_, ?_⟩
  · intro β next
    rw [update, dif_pos inside]
    simp only [bind, Option.bind_some, done]
  intro index below
  rw [values index below, Vector.getElem_set]
  refine ⟨?_, ?_, ?_⟩
  · rintro rfl
    simp [other]
  · intro member
    rw [if_pos member]
  · intro differs outside
    rw [if_neg outside, if_neg (Ne.symm differs)]

theorem mem_after {start index : Nat} :
    index ∈ after start ↔ start ≤ index ∧ index < 16 := by
  rw [after, List.mem_range'_1]
  omega

variable {prefix_len : UInt32}

/-- The bits before, in and after the byte in which the prefix ends. -/
theorem before_iff (index p : Nat) :
    decide (index < p) = (decide (index / 8 < p / 8) ||
      decide (index / 8 = p / 8) && decide (index % 8 < p % 8)) := by
  rw [← Bool.decide_and, ← Bool.decide_or]
  exact decide_eq_decide.mpr (by omega)

theorem ones_bit {place : Nat} (below : place < 8) :
    (0xff : UInt8).toBitVec.getLsbD place = true := by
  revert place
  decide

theorem subnetMask_spec (inside : prefix_len.toNat < 128) :
    ∃ subnet, subnetMask prefix_len = some (some subnet) ∧
      ∀ index < 128, bitAt subnet.m_addr.Byte.toList index =
        decide (index < prefix_len.toNat) := by
  have quotient : (prefix_len / 8).toNat = prefix_len.toNat / 8 := by simp
  obtain ⟨mask, made, bits⟩ := mask_spec prefix_len
  obtain ⟨filled, done, values⟩ :=
    @update_fill (Vector.replicate 16 0) (prefix_len / 8).toNat (by omega)
      (fun _ => ~~~⟨mask⟩) 0xff (List.range (prefix_len / 8).toNat)
      (fun index member => by
        have := List.mem_range.mp member
        omega)
      (by simp)
  refine ⟨⟨AF_INET6, 0, 0, filled, 0⟩, ?_, ?_⟩
  · rw [subnetMask, made]
    exact done _
  · intro index below
    have within : index / 8 < 16 := by omega
    obtain ⟨at_end, before, after⟩ := values (index / 8) within
    rw [bitAt_toList _ within, before_iff]
    rcases Nat.lt_trichotomy (index / 8) (prefix_len.toNat / 8) with
      less | same | more
    · rw [before (List.mem_range.mpr (by omega)), ones_bit (by omega)]
      simp [less]
    · rw [at_end (by omega), UInt8.toBitVec_not, BitVec.getLsbD_not,
        bits _ (by omega)]
      simp [same]
      omega
    · rw [after (by omega) (by rw [List.mem_range]; omega)]
      have zero : (Vector.replicate 16 (0 : UInt8))[index / 8] = 0 :=
        Vector.getElem_replicate _
      rw [zero]
      simp [Nat.lt_asymm more, Nat.ne_of_gt more]

theorem broadcastAddress_spec (inside : prefix_len.toNat < 128)
    (address : IPv6Address) :
    ∃ Byte, address.broadcastAddress prefix_len =
        some (some ⟨{ address.m_addr with Byte }⟩) ∧
      ∀ index < 128, bitAt Byte.toList index =
        (bitAt address.m_addr.Byte.toList index ||
          !decide (index < prefix_len.toNat)) := by
  have quotient : (prefix_len / 8).toNat = prefix_len.toNat / 8 := by simp
  obtain ⟨mask, made, bits⟩ := mask_spec prefix_len
  obtain ⟨filled, done, values⟩ :=
    @update_fill address.m_addr.Byte (prefix_len / 8).toNat (by omega)
      (· ||| ⟨mask⟩) 0xff (after ((prefix_len / 8).toNat + 1))
      (fun index member => (mem_after.mp member).2)
      (by rw [mem_after]; omega)
  refine ⟨filled, ?_, ?_⟩
  · rw [broadcastAddress, made]
    exact done _
  · intro index below
    have within : index / 8 < 16 := by omega
    obtain ⟨at_end, later, before⟩ := values (index / 8) within
    rw [bitAt_toList _ within, bitAt_toList _ within, before_iff]
    rcases Nat.lt_trichotomy (index / 8) (prefix_len.toNat / 8) with
      less | same | more
    · rw [before (by omega) (by rw [mem_after]; omega)]
      simp [less]
    · rw [at_end (by omega), UInt8.toBitVec_or, BitVec.getLsbD_or,
        bits _ (by omega)]
      simp [same]
    · rw [later (mem_after.mpr (by omega)), ones_bit (by omega)]
      simp [Nat.lt_asymm more, Nat.ne_of_gt more]

/-- In its last byte the prefix is what `networdAddress` clears. -/
theorem networdAddress_spec (inside : prefix_len.toNat < 128)
    (address : IPv6Address) :
    ∃ Byte, address.networdAddress prefix_len =
        some (some ⟨{ address.m_addr with Byte }⟩) ∧
      ∀ index < 128, bitAt Byte.toList index =
        (bitAt address.m_addr.Byte.toList index &&
          (decide (index / 8 < prefix_len.toNat / 8) ||
            decide (index / 8 = prefix_len.toNat / 8) &&
              !decide (index % 8 < prefix_len.toNat % 8))) := by
  have quotient : (prefix_len / 8).toNat = prefix_len.toNat / 8 := by simp
  obtain ⟨mask, made, bits⟩ := mask_spec prefix_len
  obtain ⟨filled, done, values⟩ :=
    @update_fill address.m_addr.Byte (prefix_len / 8).toNat (by omega)
      (· &&& ⟨mask⟩) 0x00 (after ((prefix_len / 8).toNat + 1))
      (fun index member => (mem_after.mp member).2)
      (by rw [mem_after]; omega)
  refine ⟨filled, ?_, ?_⟩
  · rw [networdAddress, made]
    exact done _
  · intro index below
    have within : index / 8 < 16 := by omega
    obtain ⟨at_end, later, before⟩ := values (index / 8) within
    rw [bitAt_toList _ within, bitAt_toList _ within]
    rcases Nat.lt_trichotomy (index / 8) (prefix_len.toNat / 8) with
      less | same | more
    · rw [before (by omega) (by rw [mem_after]; omega)]
      simp [less]
    · rw [at_end (by omega), UInt8.toBitVec_and, BitVec.getLsbD_and,
        bits _ (by omega)]
      simp [same]
    · rw [later (mem_after.mpr (by omega))]
      simp [Nat.lt_asymm more, Nat.ne_of_gt more]

theorem outside (bytes : Vector UInt8 16) (f : UInt8 → UInt8)
    (full : 128 ≤ prefix_len.toNat) :
    update bytes (prefix_len / 8).toNat f = none := by
  have quotient : (prefix_len / 8).toNat = prefix_len.toNat / 8 := by simp
  exact dif_neg (by omega)

theorem partly_of_subnetMask {subnet : Option IPv6Address}
    (masked : subnetMask prefix_len = some subnet) :
    prefix_len.toNat < 128 := by
  by_contra full
  obtain ⟨mask, made, -⟩ := mask_spec prefix_len
  have stuck := outside (Vector.replicate 16 0) (fun _ => ~~~⟨mask⟩)
    (Nat.not_lt.mp full)
  rw [subnetMask, made] at masked
  simp only [bind, Option.bind_some, stuck, Option.bind_none] at masked
  cases masked

end IPv6Address

namespace IPAddress

/-- The three operations by the bits of their results, each of which is an
address: the mask has the prefix, the network address is the address within
the mask, the broadcast address has all bits outside it. -/
def Subnets (host : Host) (address : IPAddress) (prefix_len : UInt32) : Prop :=
  ∃ mask network broadcast : IPAddress,
    address.subnetMask host prefix_len = some (some mask) ∧
    address.networdAddress host prefix_len = some (some network) ∧
    address.broadcastAddress host prefix_len = some (some broadcast) ∧
    (∀ index < address.width,
      bitAt (mask.bytes host) index = decide (index < prefix_len.toNat)) ∧
    (∀ index < address.width,
      bitAt (network.bytes host) index =
        (bitAt (address.bytes host) index &&
          bitAt (mask.bytes host) index)) ∧
    (∀ index < address.width,
      bitAt (broadcast.bytes host) index =
        (bitAt (address.bytes host) index ||
          !bitAt (mask.bytes host) index)) ∧
    network.family = address.family ∧ network.port = address.port ∧
    broadcast.family = address.family ∧ broadcast.port = address.port

/-- No shift by the width of an `int`, no byte outside the address, and
nothing for `networdAddress` to keep or to clear by the wrong half of the
mask. -/
def Spared (prefix_len : UInt32) : IPAddress → Prop
  | ipv4 address => 1 ≤ prefix_len.toNat ∧ address.m_addr.S_addr = 0
  | ipv6 address => ∃ inside : prefix_len.toNat / 8 < 16,
      address.m_addr.Byte[prefix_len.toNat / 8] = 0

variable {host : Host} {prefix_len : UInt32}

/-- A bit is kept on both sides of the mask only if it is not set. -/
theorem clear_of_both : ∀ {bit mask : Bool},
    (bit && mask) = (bit && !mask) → bit = false := by
  decide

theorem subnets_ipv4 (matching : host.byteOrder = host.memory)
    (address : IPv4Address) (inside : prefix_len.toNat ≤ 32) :
    (ipv4 address).Subnets host prefix_len ↔
      (ipv4 address).Spared prefix_len := by
  constructor
  · rintro ⟨mask, network, broadcast, masked, networked, -, mask_bits,
      network_bits, -⟩
    obtain ⟨subnet, made, -⟩ := Option.map_eq_some_iff.mp masked
    have some_bits := IPv4Address.some_bits_of_subnetMask made
    obtain ⟨S_addr, made, bits⟩ :=
      IPv4Address.networdAddress_spec matching some_bits inside address
    rw [networdAddress, made] at networked
    cases networked
    refine ⟨some_bits, IPv4Address.eq_zero_of_bits host ?_⟩
    intro index below
    have right := network_bits index below
    rw [mask_bits index below] at right
    have wrong := bits index below
    simp only [bytes] at right
    rw [right] at wrong
    exact clear_of_both wrong
  · rintro ⟨some_bits, zero⟩
    obtain ⟨mask, masked, mask_bits⟩ :=
      IPv4Address.subnetMask_spec matching some_bits inside
    obtain ⟨network, networked, network_bits⟩ :=
      IPv4Address.networdAddress_spec matching some_bits inside address
    obtain ⟨broadcast, broadcasted, broadcast_bits⟩ :=
      IPv4Address.broadcastAddress_spec matching some_bits inside address
    have clear : ∀ index < 32,
        bitAt (host.store 4 address.m_addr.S_addr.toNat) index = false := by
      intro index below
      rw [IPv4Address.bits_of_place host _ below, zero]
      simp
    refine ⟨ipv4 mask, ipv4 ⟨{ address.m_addr with S_addr := network }⟩,
      ipv4 ⟨{ address.m_addr with S_addr := broadcast }⟩, ?_, ?_, ?_,
      mask_bits, ?_, ?_, rfl, rfl, rfl, rfl⟩
    · rw [subnetMask, masked]; rfl
    · rw [networdAddress, networked]; rfl
    · rw [broadcastAddress, broadcasted]; rfl
    · intro index below
      have network_bit := network_bits index below
      rw [clear index below, Bool.false_and] at network_bit
      simp only [bytes]
      rw [network_bit, clear index below, Bool.false_and]
    · intro index below
      have mask_bit := mask_bits index below
      simp only [bytes]
      rw [mask_bit]
      exact broadcast_bits index below

theorem subnets_ipv6 (address : IPv6Address)
    (inside : prefix_len.toNat ≤ 128) :
    (ipv6 address).Subnets host prefix_len ↔
      (ipv6 address).Spared prefix_len := by
  constructor
  · rintro ⟨mask, network, broadcast, masked, networked, -, mask_bits,
      network_bits, -⟩
    obtain ⟨subnet, made, -⟩ := Option.map_eq_some_iff.mp masked
    have partly := IPv6Address.partly_of_subnetMask made
    obtain ⟨Byte, made, bits⟩ := IPv6Address.networdAddress_spec partly address
    rw [networdAddress, made] at networked
    cases networked
    refine ⟨by omega, ?_⟩
    apply UInt8.toBitVec_inj.mp
    apply BitVec.eq_of_getLsbD_eq
    intro place below
    -- The bit of the byte at `place` is the one read at this index.
    have index : 8 * (prefix_len.toNat / 8) + (7 - place) < 128 := by omega
    have byte : (8 * (prefix_len.toNat / 8) + (7 - place)) / 8 =
        prefix_len.toNat / 8 := by omega
    have rest : (8 * (prefix_len.toNat / 8) + (7 - place)) % 8 = 7 - place := by
      omega
    have right := network_bits _ index
    rw [mask_bits _ index, IPv6Address.before_iff] at right
    have wrong := bits _ index
    simp only [bytes] at right
    rw [right, IPv6Address.bitAt_toList _ (by omega)] at wrong
    have back : 7 - (7 - place) = place := by omega
    simp only [byte, rest, back, Nat.lt_irrefl, decide_false, Bool.false_or,
      decide_true, Bool.true_and] at wrong
    rw [clear_of_both wrong]
    simp
  · rintro ⟨last, zero⟩
    have partly : prefix_len.toNat < 128 := by omega
    obtain ⟨mask, masked, mask_bits⟩ := IPv6Address.subnetMask_spec partly
    obtain ⟨network, networked, network_bits⟩ :=
      IPv6Address.networdAddress_spec partly address
    obtain ⟨broadcast, broadcasted, broadcast_bits⟩ :=
      IPv6Address.broadcastAddress_spec partly address
    refine ⟨ipv6 mask, ipv6 ⟨{ address.m_addr with Byte := network }⟩,
      ipv6 ⟨{ address.m_addr with Byte := broadcast }⟩, ?_, ?_, ?_,
      mask_bits, ?_, ?_, rfl, rfl, rfl, rfl⟩
    · rw [subnetMask, masked]; rfl
    · rw [networdAddress, networked]; rfl
    · rw [broadcastAddress, broadcasted]; rfl
    · intro index below
      have mask_bit := mask_bits index below
      have network_bit := network_bits index below
      simp only [bytes]
      rw [mask_bit, network_bit, IPv6Address.before_iff index]
      by_cases here : index / 8 = prefix_len.toNat / 8
      · have clear : bitAt address.m_addr.Byte.toList index = false := by
          rw [IPv6Address.bitAt_toList _ (by rw [here]; exact last)]
          simp only [here, zero]
          simp
        rw [clear, Bool.false_and, Bool.false_and]
      · simp [here]
    · intro index below
      have mask_bit := mask_bits index below
      simp only [bytes]
      rw [mask_bit]
      exact broadcast_bits index below

theorem subnets_iff (host : Host) (matching : host.byteOrder = host.memory)
    (address : IPAddress) (prefix_len : UInt32)
    (inside : prefix_len.toNat ≤ address.width) :
    address.Subnets host prefix_len ↔ address.Spared prefix_len := by
  cases address with
  | ipv4 address => exact subnets_ipv4 matching address inside
  | ipv6 address => exact subnets_ipv6 address inside

/-- 0.0.0.0/24, and 2001:db8::/32 with the port 80. -/
theorem subnets_of_zero :
    (ipv4 ⟨AF_INET, 80, 0⟩).Subnets ⟨.little, .little⟩ 24 ∧
      (ipv6 ⟨AF_INET6, 80, 0,
        ⟨#[0x20, 0x01, 0x0d, 0xb8, 0, 0, 0, 0, 0, 0, 0, 0, 0, 0, 0, 0], rfl⟩, 0⟩).Subnets
        ⟨.little, .little⟩ 32 :=
  ⟨(subnets_iff ⟨.little, .little⟩ rfl _ 24 (by decide)).mpr ⟨by decide, rfl⟩,
    (subnets_iff ⟨.little, .little⟩ rfl _ 32 (by decide)).mpr ⟨by decide, by decide⟩⟩

/-- The network of 192.168.1.10/24 comes out as 0.0.0.10, and a prefix of no
bits or of all 128 has no defined mask. -/
theorem subnets_not :
    ¬ (ipv4 ⟨AF_INET, 80, 0x0a01a8c0⟩).Subnets ⟨.little, .little⟩ 24 ∧
      (ipv4 ⟨AF_INET, 80, 0x0a01a8c0⟩).networdAddress ⟨.little, .little⟩ 24 =
        some (some (ipv4 ⟨AF_INET, 80, 0x0a000000⟩)) ∧
      (ipv4 ⟨AF_INET, 80, 0x0a01a8c0⟩).subnetMask ⟨.little, .little⟩ 0 =
        none ∧
      (ipv6 ⟨AF_INET6, 80, 0, Vector.replicate 16 0, 0⟩).subnetMask
        ⟨.little, .little⟩ 128 = none := by
  have network : (ipv4 ⟨AF_INET, 80, 0x0a01a8c0⟩).networdAddress
      ⟨.little, .little⟩ 24 = some (some (ipv4 ⟨AF_INET, 80, 0x0a000000⟩)) := by
    decide
  refine ⟨?_, network, by decide, by decide⟩
  rintro ⟨mask, wrong, broadcast, -, networked, -, mask_bits, bits, -⟩
  rw [network] at networked
  cases networked
  have first := bits 0 (by decide)
  rw [mask_bits 0 (by decide)] at first
  revert first
  decide

end IPAddress

end Sylar
