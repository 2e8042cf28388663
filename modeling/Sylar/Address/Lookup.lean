import Sylar.Address.Model
import Sylar.Data.Text

namespace Sylar

open Data

/-! The text of an address and its split into host and service. -/

namespace IPv4Address

/-- The part of the address before the colon. -/
def text (host : Host) (address : IPv4Address) : Text :=
  let addr := byteswapUint32 host address.m_addr.S_addr
  decimal ((addr >>> 24) &&& 0xff).toNat ++ '.' ::
    (decimal ((addr >>> 16) &&& 0xff).toNat ++ '.' ::
      (decimal ((addr >>> 8) &&& 0xff).toNat ++ '.' ::
        decimal (addr &&& 0xff).toNat))

def insert (host : Host) (address : IPv4Address) : Text :=
  address.text host ++
    ':' :: decimal (byteswapUint16 host address.m_addr.sin_port).toNat

end IPv4Address

namespace IPv6Address

/-- `addr[index]`, the address read as numbers of two bytes. -/
def addr (host : Host) (address : IPv6Address) (index : Nat) : UInt16 :=
  UInt16.ofNat
    (host.load ((address.m_addr.Byte.toList.drop (2 * index)).take 2))

/-- One round of the loop over the numbers: what is written and `used_zeros`. -/
def insertGroup (host : Host) (addr : Nat → UInt16) (os : Text × Bool)
    (i : Nat) : Text × Bool :=
  let (text, used_zeros) := os
  if addr i = 0 ∧ !used_zeros then (text, used_zeros)
  else
    let (text, used_zeros) :=
      if i ≠ 0 ∧ addr (i - 1) = 0 ∧ !used_zeros then (text ++ [':'], true)
      else (text, used_zeros)
    let text := if i ≠ 0 then text ++ [':'] else text
    (text ++ hexadecimal (byteswapUint16 host (addr i)).toNat, used_zeros)

/-- The part of the address between the brackets. -/
def text (host : Host) (address : IPv6Address) : Text :=
  let addr := address.addr host
  let (text, used_zeros) :=
    (List.range 8).foldl (insertGroup host addr) ([], false)
  if !used_zeros ∧ addr 7 = 0 then text ++ [':', ':'] else text

def insert (host : Host) (address : IPv6Address) : Text :=
  '[' :: (address.text host ++
    ']' :: decimal (byteswapUint16 host address.m_addr.sin6_port).toNat)

end IPv6Address

namespace Address

/-- The node and `service` for an address in brackets. -/
def bracketed : Text → Text × Option Text
  | '[' :: inner =>
      match memchr ']' inner with
      | some endipv6 =>
          (inner.take (inner.length - endipv6.length),
            if endipv6[1]? = some ':' then some (endipv6.drop 2) else none)
      | none => ([], none)
  | _ => ([], none)

/-- The node and `service` for a text with colons: with more than one the node
stays empty, and `service` is left at the first. -/
def separated (host : Text) : Text × Option Text :=
  match memchr ':' host with
  | some service =>
      if (memchr ':' (service.drop 1)).isNone then
        (host.take (host.length - service.length), some (service.drop 1))
      else ([], some service)
  | none => ([], none)

/-- The node and, if `service` is not null, the text it points to. -/
def split (host : Text) : Text × Option Text :=
  let (node, service) := bracketed host
  let (node, service) :=
    if node.isEmpty then separated host else (node, service)
  (if node.isEmpty then host else node, service)

end Address

namespace IPAddress

def text (host : Host) : IPAddress → Text
  | ipv4 address => address.text host
  | ipv6 address => address.text host

def toString (host : Host) : IPAddress → Text
  | ipv4 address => address.insert host
  | ipv6 address => address.insert host

def getPort (host : Host) (address : IPAddress) : Nat :=
  (byteswapUint16 host address.port).toNat

def isIPv4 : IPAddress → Bool
  | ipv4 _ => true
  | ipv6 _ => false

/-- What is printed is split into the address and its port. -/
def Agrees (host : Host) (address : IPAddress) : Prop :=
  Address.split (address.toString host) =
    (address.text host, some (decimal (address.getPort host)))

instance (host : Host) (address : IPAddress) : Decidable (address.Agrees host) :=
  inferInstanceAs (Decidable (_ = _))

end IPAddress

namespace Address

theorem split_of_bracketed {host node : Text} {service : Option Text}
    (found : bracketed host = (node, service)) (some_node : node ≠ []) :
    split host = (node, service) := by
  have kept : node.isEmpty = false := List.isEmpty_eq_false_iff.mpr some_node
  unfold split
  simp [found, kept]

/-- A node without bracket and colon, in front of the only colon. -/
theorem split_colon {node service : Text} (some_node : node ≠ [])
    (plain : node.head? ≠ some '[') (no_colon : ':' ∉ node)
    (only : ':' ∉ service) :
    split (node ++ ':' :: service) = (node, some service) := by
  have kept : node.isEmpty = false := List.isEmpty_eq_false_iff.mpr some_node
  have bare : bracketed (node ++ ':' :: service) = ([], none) := by
    obtain ⟨first, rest, rfl⟩ := List.exists_cons_of_ne_nil some_node
    unfold bracketed
    split
    · rename_i inner same
      obtain ⟨rfl, -⟩ := List.cons.inj same
      exact absurd rfl plain
    · rfl
  have found : separated (node ++ ':' :: service) = (node, some service) := by
    unfold separated
    rw [memchr_append no_colon service]
    simp only [List.drop_succ_cons, List.drop_zero, memchr_none only,
      take_before, Option.isNone_none, if_true]
  unfold split
  simp [bare, found, kept]

/-- A node in brackets with no colon behind them. -/
theorem split_bracket {node rest : Text} (some_node : node ≠ [])
    (inner : ']' ∉ node) (after : rest.head? ≠ some ':') :
    split ('[' :: (node ++ ']' :: rest)) = (node, none) := by
  have next : (']' :: rest)[1]? ≠ some ':' := by
    rwa [List.getElem?_cons_succ, ← List.head?_eq_getElem?]
  refine split_of_bracketed ?_ some_node
  unfold bracketed
  simp only [memchr_append inner rest, take_before, if_neg next]

end Address

namespace IPv4Address

variable (host : Host) (address : IPv4Address)

theorem text_spec :
    address.text host ≠ [] ∧ (address.text host).head? ≠ some '[' ∧
      ':' ∉ address.text host := by
  have plain : ∀ value, ':' ∉ decimal value :=
    fun value => not_mem_decimal (by decide) value
  have bracket : ∀ value, '[' ∉ decimal value :=
    fun value => not_mem_decimal (by decide) value
  refine ⟨?_, ?_, ?_⟩
  · simp [text, decimal_ne_nil]
  · intro first
    have member := List.mem_of_head? first
    simp [text, bracket] at member
  · simp [text, plain]

end IPv4Address

namespace IPv6Address

variable (host : Host)

/-- As long as nothing is written all numbers were zero. -/
structure Written (addr : Nat → UInt16) (count : Nat) (os : Text × Bool) :
    Prop where
  inner : ']' ∉ os.1
  empty : os.1 = [] → os.2 = false ∧ ∀ i < count, addr i = 0

theorem insertGroup_spec {addr : Nat → UInt16} {count : Nat}
    {os : Text × Bool} (written : Written addr count os) :
    Written addr (count + 1) (insertGroup host addr os count) := by
  obtain ⟨text, used_zeros⟩ := os
  obtain ⟨inner, empty⟩ := written
  unfold insertGroup
  simp only at inner empty ⊢
  split
  · rename_i skipped
    refine ⟨inner, ?_⟩
    intro none
    obtain ⟨unused, zeros⟩ := empty none
    refine ⟨unused, ?_⟩
    intro i below
    rcases Nat.lt_succ_iff_lt_or_eq.mp below with before | rfl
    · exact zeros i before
    · exact skipped.1
  · refine ⟨?_, ?_⟩
    · split <;> split <;>
        simp [inner, not_mem_hexadecimal]
    · intro none
      split at none <;> simp [hexadecimal_ne_nil] at none

theorem groups_spec (addr : Nat → UInt16) (count : Nat) :
    Written addr count
      ((List.range count).foldl (insertGroup host addr) ([], false)) := by
  induction count with
  | zero => exact ⟨by simp, fun _ => ⟨rfl, by simp⟩⟩
  | succ count ih =>
      rw [List.range_succ, List.foldl_append]
      exact insertGroup_spec host ih

theorem text_spec (address : IPv6Address) :
    address.text host ≠ [] ∧ ']' ∉ address.text host := by
  have written := groups_spec host (address.addr host) 8
  unfold text
  simp only
  split
  · exact ⟨by simp, by simp [written.inner]⟩
  · rename_i other
    refine ⟨?_, written.inner⟩
    intro none
    obtain ⟨unused, zeros⟩ := written.empty none
    exact other ⟨by rw [unused]; rfl, zeros 7 (by decide)⟩

end IPv6Address

namespace IPAddress

/-- The split of a printed address; that of a version 6 one has no port, since
no colon is printed behind its bracket. -/
theorem split_toString (host : Host) (address : IPAddress) :
    Address.split (address.toString host) =
      (address.text host,
        if address.isIPv4 then some (decimal (address.getPort host))
        else none) := by
  cases address with
  | ipv4 address =>
      obtain ⟨some_text, plain, no_colon⟩ := IPv4Address.text_spec host address
      exact Address.split_colon some_text plain no_colon
        (not_mem_decimal (by decide) _)
  | ipv6 address =>
      obtain ⟨some_text, inner⟩ := IPv6Address.text_spec host address
      refine Address.split_bracket some_text inner ?_
      intro first
      exact not_mem_decimal (by decide) _ (List.mem_of_head? first)

theorem lookup_agrees_iff (host : Host) (address : IPAddress) :
    address.Agrees host ↔ address.isIPv4 = true := by
  unfold Agrees
  rw [split_toString]
  cases address.isIPv4 <;> simp

/-- The port of [::1] with port 80, printed "[::1]80", is lost. -/
theorem lookup_agrees_not :
    (ipv6 ⟨AF_INET6, 0x5000, 0,
        (Vector.replicate 16 0).set 15 1, 0⟩).toString ⟨.little, .little⟩ =
      "[::1]80".toList ∧
    Address.split "[::1]80".toList = ("::1".toList, none) ∧
    ¬ (ipv6 ⟨AF_INET6, 0x5000, 0,
        (Vector.replicate 16 0).set 15 1, 0⟩).Agrees ⟨.little, .little⟩ := by
  decide

end IPAddress

end Sylar
