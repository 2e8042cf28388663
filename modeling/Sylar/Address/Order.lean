import Sylar.Address.Model
import Sylar.Data.Lexicographic

namespace Sylar

open Data

/-! The order of addresses, by the bytes of their `sockaddr`. -/

/-- `m_length` is computed from a path that fits or is what the system stores
for the structure. `setAddrLen` could store any length; nothing gives it a larger
one. -/
structure UnixAddress where
  sun_family : UInt16
  sun_path : Vector UInt8 108
  m_length : Nat
  inside : m_length ≤ 2 + 108
  deriving DecidableEq, Repr

structure UnknownAddress where
  sa_family : UInt16
  sa_data : Vector UInt8 14
  deriving DecidableEq, Repr

/-- The fourth field of a `sockaddr_in` counts for the order only. -/
inductive Address where
  | ipv4 (address : IPv4Address) (sin_zero : Vector UInt8 8)
  | ipv6 (address : IPv6Address)
  | unix (address : UnixAddress)
  | unknown (address : UnknownAddress)
  deriving DecidableEq, Repr

namespace Address

variable (host : Host)

/-- The memory of the `sockaddr` that `getAddr` points to. -/
def getAddr : Address → Bytes
  | ipv4 address sin_zero =>
      host.store 2 address.m_addr.sin_family.toNat ++
        host.store 2 address.m_addr.sin_port.toNat ++
        host.store 4 address.m_addr.S_addr.toNat ++ sin_zero.toList
  | ipv6 address =>
      host.store 2 address.m_addr.sin6_family.toNat ++
        host.store 2 address.m_addr.sin6_port.toNat ++
        host.store 4 address.m_addr.sin6_flowinfo.toNat ++
        address.m_addr.Byte.toList ++
        host.store 4 address.m_addr.sin6_scope_id.toNat
  | unix address =>
      host.store 2 address.sun_family.toNat ++ address.sun_path.toList
  | unknown address =>
      host.store 2 address.sa_family.toNat ++ address.sa_data.toList

def getAddrLen : Address → Nat
  | ipv4 _ _ => 16
  | ipv6 _ => 28
  | unix address => address.m_length
  | unknown _ => 16

/-- `memcmp` compares bytes as numbers without a sign. -/
def compareAddr (lhs rhs : Address) (len : Nat) : Ordering :=
  memcmp ((lhs.getAddr host).map UInt8.toNat) ((rhs.getAddr host).map UInt8.toNat)
    len

/-- `operator<`. The last `if` has no `else`: the function ends without a
value. -/
def less (lhs rhs : Address) : Option Bool :=
  let len := min lhs.getAddrLen rhs.getAddrLen
  match compareAddr host lhs rhs len with
  | .lt => some true
  | .gt => some false
  | .eq => if lhs.getAddrLen < rhs.getAddrLen then some true else none

/-- `operator==` -/
def equal (lhs rhs : Address) : Bool :=
  lhs.getAddrLen = rhs.getAddrLen &&
    compareAddr host lhs rhs lhs.getAddrLen = .eq

/-- What the operators see of an address. -/
def bytes (address : Address) : List Nat :=
  ((address.getAddr host).take address.getAddrLen).map UInt8.toNat

/-- Of an address and another one exactly one is less, or they are equal, all of
that is defined, and `<` leads on to a third one. -/
def Ordered (a b c : Address) : Prop :=
  (a.less host b).isSome ∧ (b.less host a).isSome ∧
    (a.less host b = some true ∧ a.equal host b = false ∧
        b.less host a = some false ∨
      a.less host b = some false ∧ a.equal host b = true ∧
        b.less host a = some false ∨
      a.less host b = some false ∧ a.equal host b = false ∧
        b.less host a = some true) ∧
    (a.less host b = some true → b.less host c = some true →
      a.less host c = some true)

/-- The bytes of neither address start with those of the other, as those of an
address start with themselves. -/
def Differ (a b : Address) : Prop :=
  ¬ a.bytes host <+: b.bytes host ∧ ¬ b.bytes host <+: a.bytes host

instance (a b : Address) : Decidable (Differ host a b) :=
  inferInstanceAs (Decidable (_ ∧ _))

variable {host}

theorem getAddrLen_le (address : Address) :
    address.getAddrLen ≤ (address.getAddr host).length := by
  cases address with
  | ipv4 address sin_zero => simp [getAddrLen, getAddr]
  | ipv6 address => simp [getAddrLen, getAddr]
  | unix address => simpa [getAddrLen, getAddr] using address.inside
  | unknown address => simp [getAddrLen, getAddr]

@[simp] theorem bytes_length (address : Address) :
    (address.bytes host).length = address.getAddrLen := by
  rw [bytes, List.length_map, List.length_take]
  exact Nat.min_eq_left address.getAddrLen_le

theorem compareAddr_eq {lhs rhs : Address} {len : Nat}
    (inside : len ≤ lhs.getAddrLen) (within : len ≤ rhs.getAddrLen) :
    compareAddr host lhs rhs len = memcmp (lhs.bytes host) (rhs.bytes host) len := by
  rw [bytes, bytes, List.map_take, List.map_take, memcmp_take _ _ inside within]
  rfl

theorem less_eq (lhs rhs : Address) :
    lhs.less host rhs =
      match compareShorter (lhs.bytes host) (rhs.bytes host) with
      | .lt => some true
      | .gt => some false
      | .eq => if lhs.getAddrLen < rhs.getAddrLen then some true else none := by
  rw [compareShorter, bytes_length, bytes_length,
    ← compareAddr_eq (Nat.min_le_left _ _) (Nat.min_le_right _ _)]
  rfl

/-- Where it is true, `operator<` is the lexicographic order. -/
theorem less_iff (lhs rhs : Address) :
    lhs.less host rhs = some true ↔ lhs.bytes host < rhs.bytes host := by
  rw [less_eq, lt_iff_compareShorter, bytes_length, bytes_length]
  cases compareShorter (lhs.bytes host) (rhs.bytes host) <;> simp

theorem equal_iff (lhs rhs : Address) :
    lhs.equal host rhs = true ↔ lhs.bytes host = rhs.bytes host := by
  unfold equal
  rw [Bool.and_eq_true, decide_eq_true_eq, decide_eq_true_eq]
  constructor
  · rintro ⟨lengths, same⟩
    rw [compareAddr_eq (Nat.le_refl _) lengths.le] at same
    have shorter : compareShorter (lhs.bytes host) (rhs.bytes host) = .eq := by
      rw [compareShorter, bytes_length, bytes_length, ← lengths, Nat.min_self]
      exact same
    have total : (lhs.bytes host).length = (rhs.bytes host).length := by
      rw [bytes_length, bytes_length, lengths]
    rcases (compareShorter_eq_iff _ _).mp shorter with starts | starts
    · exact starts.eq_of_length total
    · exact (starts.eq_of_length total.symm).symm
  · intro same
    have lengths : lhs.getAddrLen = rhs.getAddrLen := by
      rw [← @bytes_length host lhs, same, bytes_length]
    refine ⟨lengths, ?_⟩
    have shorter := (compareShorter_eq_iff (lhs.bytes host) (rhs.bytes host)).mpr
      (.inl (same ▸ List.prefix_refl _))
    rw [compareShorter, bytes_length, bytes_length, ← lengths,
      Nat.min_self] at shorter
    rw [compareAddr_eq (Nat.le_refl _) lengths.le]
    exact shorter

/-- `operator<` has no value for an address that starts with the other one. -/
theorem less_none_iff (lhs rhs : Address) :
    lhs.less host rhs = none ↔ rhs.bytes host <+: lhs.bytes host := by
  have starts := compareShorter_eq_iff (lhs.bytes host) (rhs.bytes host)
  have lengths : rhs.bytes host <+: lhs.bytes host →
      ¬ lhs.getAddrLen < rhs.getAddrLen := by
    intro first
    have shorter := first.length_le
    rw [bytes_length, bytes_length] at shorter
    exact Nat.not_lt.mpr shorter
  rw [less_eq]
  cases shape : compareShorter (lhs.bytes host) (rhs.bytes host) with
  | lt =>
      rw [shape] at starts
      simpa using fun first => absurd (starts.mpr (.inr first)) (by decide)
  | gt =>
      rw [shape] at starts
      simpa using fun first => absurd (starts.mpr (.inr first)) (by decide)
  | eq =>
      simp only [ite_eq_right_iff, reduceCtorEq, imp_false]
      constructor
      · intro long
        rcases starts.mp shape with first | first
        · have same := first.eq_of_length
            (le_antisymm first.length_le (by simpa using long))
          exact same ▸ List.prefix_refl _
        · exact first
      · exact lengths

theorem less_trans {a b c : Address} (first : a.less host b = some true)
    (second : b.less host c = some true) : a.less host c = some true := by
  rw [less_iff] at first second ⊢
  exact lt_trans first second

theorem ordered_iff (host : Host) (a b c : Address) :
    Ordered host a b c ↔ Differ host a b := by
  constructor
  · rintro ⟨forth, back, -⟩
    refine ⟨fun starts => ?_, fun starts => ?_⟩
    · rw [(less_none_iff b a).mpr starts] at back
      cases back
    · rw [(less_none_iff a b).mpr starts] at forth
      cases forth
  · rintro ⟨apart, away⟩
    have differ : a.equal host b = false := by
      rw [← Bool.not_eq_true, equal_iff]
      exact fun same => apart (same ▸ List.prefix_refl _)
    have different : compareShorter (a.bytes host) (b.bytes host) ≠ .eq := by
      rw [ne_eq, compareShorter_eq_iff]
      exact not_or.mpr ⟨apart, away⟩
    have forth := @less_eq host a b
    have back := @less_eq host b a
    rw [compareShorter_swap] at back
    cases shape : compareShorter (a.bytes host) (b.bytes host) with
    | lt =>
        rw [shape] at forth back
        exact ⟨by rw [forth]; rfl, by rw [back]; rfl, .inl ⟨forth, differ, back⟩,
          less_trans⟩
    | gt =>
        rw [shape] at forth back
        exact ⟨by rw [forth]; rfl, by rw [back]; rfl,
          .inr (.inr ⟨forth, differ, back⟩), less_trans⟩
    | eq => exact absurd shape different

/-- 127.0.0.1:80 and itself, of which neither is less. -/
theorem ordered_not :
    ¬ Ordered ⟨.little, .little⟩
      (ipv4 ⟨AF_INET, 0x5000, 0x0100007f⟩ (Vector.replicate 8 0))
      (ipv4 ⟨AF_INET, 0x5000, 0x0100007f⟩ (Vector.replicate 8 0))
      (ipv4 ⟨AF_INET, 0x5000, 0x0100007f⟩ (Vector.replicate 8 0)) ∧
    less ⟨.little, .little⟩
      (ipv4 ⟨AF_INET, 0x5000, 0x0100007f⟩ (Vector.replicate 8 0))
      (ipv4 ⟨AF_INET, 0x5000, 0x0100007f⟩ (Vector.replicate 8 0)) = none := by
  have missing : less ⟨.little, .little⟩
      (ipv4 ⟨AF_INET, 0x5000, 0x0100007f⟩ (Vector.replicate 8 0))
      (ipv4 ⟨AF_INET, 0x5000, 0x0100007f⟩ (Vector.replicate 8 0)) = none := by
    decide
  refine ⟨?_, missing⟩
  rintro ⟨defined, -⟩
  rw [missing] at defined
  cases defined

end Address

end Sylar
