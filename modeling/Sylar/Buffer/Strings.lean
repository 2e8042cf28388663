import Sylar.Buffer.Content
import Sylar.Buffer.Reachable

namespace Sylar

open Logic Data

namespace ByteArray

/-! Strings behind their length in sixteen bits. -/

section Runs

variable (host : Host)

def writeStrings : List Bytes → Method Unit
  | [] => pure ()
  | value :: strings => do
      writeStringF16 host value
      writeStrings strings

/-- One `readStringF16` for each string. -/
def readStrings : Nat → Method (List Bytes)
  | 0 => pure []
  | count + 1 => do
      let value ← readStringF16 host
      let strings ← readStrings count
      pure (value :: strings)

def stringBytes (order : Endian) (value : Bytes) : Bytes :=
  fixedBytes host order 2 (UInt16.ofNat value.length).toNat ++ value

/-- Written to an empty array, the strings are read back from its start, and
nothing is left; or a string that is too long made the writing fail. -/
def InStep (heap : Nat → UInt8) (base : Nat) (little : Bool)
    (strings : List Bytes) : Prop :=
  ∃ empty, setIsLittleEndian little (.new host.byteOrder heap base) =
      .done () empty ∧
    ((∃ error after, writeStrings host strings empty = .raise error after ∧
        ∃ value ∈ strings, 2 ^ 16 ≤ value.length) ∨
      ∃ written start last,
        writeStrings host strings empty = .done () written ∧
        setPosition 0 written = .done () start ∧
        readStrings host strings.length start = .done strings last ∧
        last.position = written.size ∧ last.size = written.size)

end Runs

/-- The bytes the strings take. -/
def total (strings : List Bytes) : Nat :=
  (strings.map fun value => 2 + value.length).sum

@[simp] theorem total_nil : total [] = 0 := rfl

@[simp] theorem total_cons (value : Bytes) (strings : List Bytes) :
    total (value :: strings) = 2 + value.length + total strings := rfl

theorem total_last (before : List Bytes) :
    total (before ++ [[]]) = total before + 2 := by
  simp [total]

variable {host : Host} {order : Endian} {strings : List Bytes}

theorem stringBytes_length (value : Bytes) :
    (stringBytes host order value).length = 2 + value.length := by
  rw [stringBytes, List.length_append, fixedBytes_length]

theorem flatMap_stringBytes_length (strings : List Bytes) :
    (strings.flatMap (stringBytes host order)).length = total strings := by
  induction strings with
  | nil => rfl
  | cons value strings ih =>
      rw [List.flatMap_cons, List.length_append, ih, stringBytes_length]
      rfl

theorem writeStrings_appends (strings : List Bytes) :
    Appends order (writeStrings host strings)
      (strings.flatMap (stringBytes host order)) () := by
  induction strings with
  | nil => exact .pure ()
  | cons value strings ih =>
      rw [List.flatMap_cons]
      exact .bind (.bind (.writeFixed_any host order 2 _) (.write value)) ih

/-! What is read fits its prefix. -/

theorem read_length {ba after : ByteArray} (inv : ba.Inv) {count : Nat}
    {bytes : Bytes} (result : read count ba = .done bytes after) :
    bytes.length = count := by
  have order := inv.position_le
  have within := inv.size_le
  by_cases enough : count ≤ ba.getReadSize
  · by_cases inside : ba.position < ba.capacity
    · rw [read_spec inv enough inside] at result
      obtain ⟨rfl, -⟩ := Outcome.done.inj result
      unfold getReadSize at enough
      rw [List.length_take, List.length_drop, inv.memory_length]
      omega
    · obtain rfl : count = 0 := by
        unfold getReadSize at enough
        omega
      rw [read_null inv (by omega)] at result
      cases result
  · obtain ⟨error, short⟩ := read_short ba (Nat.not_le.mp enough)
    rw [short] at result
    cases result

theorem readStringF16_small {ba after : ByteArray} (inv : ba.Inv) {value : Bytes}
    (result : readStringF16 host ba = .done value after) :
    value.length < 2 ^ 16 ∧ after.Inv := by
  obtain ⟨len, middle, counted, body⟩ := Prog.of_bind_done result
  have kept : middle.Inv :=
    keeps_then_pure (keeps_readFixed host 2) UInt16.ofNat inv
      (by rw [show (readFixed host 2 >>= fun value => pure (UInt16.ofNat value)) ba =
        .done len middle from counted]; rfl)
  refine ⟨?_, keeps_read len.toNat kept (by rw [body]; rfl)⟩
  rw [read_length kept body]
  exact len.toNat_lt

theorem readStrings_small {count : Nat} {ba last : ByteArray} (inv : ba.Inv)
    (result : readStrings host count ba = .done strings last) :
    ∀ value ∈ strings, value.length < 2 ^ 16 := by
  induction count generalizing ba strings with
  | zero =>
      cases result
      simp
  | succ count ih =>
      obtain ⟨value, middle, first, result⟩ := Prog.of_bind_done result
      obtain ⟨rest, final, later, result⟩ := Prog.of_bind_done result
      cases result
      obtain ⟨small, kept⟩ := readStringF16_small inv first
      exact List.forall_mem_cons.mpr ⟨small, ih kept later⟩

/-! Reading back. -/

namespace Cursor

variable {capacity position : Nat} {rest : Bytes} {ba : ByteArray}

theorem readFuint16 {value : UInt16}
    (cursor : Cursor order capacity position
      (fixedBytes host order 2 value.toNat ++ rest) ba) :
    ∃ after, ByteArray.readFuint16 host ba = .done value after ∧
      Cursor order capacity (position + 2) rest after := by
  obtain ⟨after, result, moved⟩ := cursor.readFixed_any (by decide) value.toNat_lt
  refine ⟨after, ?_, moved⟩
  unfold ByteArray.readFuint16
  rw [Prog.bind_done result, UInt16.ofNat_toNat]
  rfl

theorem readStringF16 {value : Bytes} (small : value.length < 2 ^ 16)
    (cursor : Cursor order capacity position
      (stringBytes host order value ++ rest) ba)
    (inside : position + 2 < capacity) :
    ∃ after, ByteArray.readStringF16 host ba = .done value after ∧
      Cursor order capacity (position + (2 + value.length)) rest after := by
  rw [stringBytes, List.append_assoc] at cursor
  obtain ⟨middle, counted, moved⟩ := cursor.readFuint16
  obtain ⟨after, result, finished⟩ := moved.read inside
  refine ⟨after, ?_, by rwa [← Nat.add_assoc]⟩
  unfold ByteArray.readStringF16
  rw [Prog.bind_done counted, UInt16.toNat_ofNat_of_lt' small]
  exact result

/-- An empty string whose prefix fills the last node. -/
theorem readStringF16_null
    (cursor : Cursor order capacity position
      (stringBytes host order [] ++ rest) ba)
    (ended : position + 2 = capacity) :
    ByteArray.readStringF16 host ba = .fault := by
  rw [stringBytes, List.append_nil] at cursor
  obtain ⟨middle, counted, moved⟩ := cursor.readFuint16
  rw [ended] at moved
  unfold ByteArray.readStringF16
  rw [Prog.bind_done counted]
  exact moved.read_null

/-- Behind the prefix of a string the array goes on, except for an empty string
that is the last. -/
theorem readStrings (small : ∀ value ∈ strings, value.length < 2 ^ 16)
    (cursor : Cursor order capacity position
      (strings.flatMap (stringBytes host order) ++ rest) ba)
    (inside : strings.getLast? = some [] → position + total strings < capacity) :
    ∃ last, ByteArray.readStrings host strings.length ba = .done strings last ∧
      Cursor order capacity (position + total strings) rest last := by
  induction strings generalizing position ba with
  | nil => exact ⟨ba, rfl, cursor⟩
  | cons value strings ih =>
      obtain ⟨fits, small⟩ := List.forall_mem_cons.mp small
      rw [List.flatMap_cons, List.append_assoc] at cursor
      have room := cursor.end_le
      rw [List.length_append, stringBytes_length, List.length_append,
        flatMap_stringBytes_length] at room
      have sum : total (value :: strings) = 2 + value.length + total strings := rfl
      have present : position + 2 < capacity := by
        cases strings with
        | nil =>
            cases value with
            | nil => exact inside rfl
            | cons byte value =>
                rw [List.length_cons] at room
                omega
        | cons next strings =>
            have more : total (next :: strings) =
                2 + next.length + total strings := rfl
            omega
      obtain ⟨middle, first, moved⟩ := cursor.readStringF16 fits present
      obtain ⟨last, others, finished⟩ := ih small moved (by
        intro ends
        cases strings with
        | nil => cases ends
        | cons next strings =>
            have := inside (by rw [List.getLast?_cons_cons]; exact ends)
            omega)
      refine ⟨last, ?_, ?_⟩
      · rw [List.length_cons]
        unfold ByteArray.readStrings
        rw [Prog.bind_done first, Prog.bind_done others]
        rfl
      · rw [sum, ← Nat.add_assoc]
        exact finished

/-- Behind the prefix of the last string, an empty one, there is no node. -/
theorem readStrings_null {before : List Bytes}
    (small : ∀ value ∈ before, value.length < 2 ^ 16)
    (cursor : Cursor order capacity position
      ((before ++ [[]]).flatMap (stringBytes host order) ++ rest) ba)
    (full : position + total (before ++ [[]]) = capacity) :
    ByteArray.readStrings host (before ++ [[]]).length ba = .fault := by
  induction before generalizing position ba with
  | nil =>
      rw [List.nil_append, List.flatMap_singleton] at cursor
      exact Prog.bind_fault (cursor.readStringF16_null full)
  | cons value before ih =>
      obtain ⟨fits, small⟩ := List.forall_mem_cons.mp small
      rw [List.cons_append, List.flatMap_cons, List.append_assoc] at cursor
      have sum : total (value :: before ++ [[]]) =
          2 + value.length + total (before ++ [[]]) := rfl
      have last := total_last before
      obtain ⟨middle, first, moved⟩ := cursor.readStringF16 fits (by omega)
      exact (Prog.bind_done first).trans
        (Prog.bind_fault (ih small moved (by omega)))

end Cursor

theorem strings_written (heap : Nat → UInt8) {base : Nat} (positive : 1 ≤ base)
    (strings : List Bytes) :
    ∃ written, writeStrings host strings (.new order heap base) =
        .done () written ∧
      setPosition 0 written = .done () (written.moveTo 0) ∧
      written.size = total strings ∧
      Cursor order (max base (roundUp base (total strings))) 0
        (strings.flatMap (stringBytes host order)) (written.moveTo 0) := by
  have inv : (ByteArray.new order heap base).Inv := inv_new order heap positive
  obtain ⟨written, ran, appended⟩ :=
    @writeStrings_appends host order strings _ inv rfl rfl
  have start := appended.start
  have size := appended.size inv
  rw [flatMap_stringBytes_length] at start size
  exact ⟨written, ran, setPosition_spec appended.inv (Nat.zero_le _),
    size.trans (Nat.zero_add _), start⟩

/-- A list that is read back is read from what was written. -/
theorem InStep.read {heap : Nat → UInt8} {base : Nat} {little : Bool}
    (inStep : InStep host heap base little strings) (positive : 1 ≤ base) :
    ∃ order start last, readStrings host strings.length start = .done strings last ∧
      Cursor order (max base (roundUp base (total strings))) 0
        (strings.flatMap (stringBytes host order)) start := by
  obtain ⟨empty, configured, outcome⟩ := inStep
  cases configured
  obtain ⟨written, ran, rewound, -, start⟩ := @strings_written host
    (if little then .little else .big) heap base positive strings
  rcases outcome with ⟨error, after, failed, -⟩ | ⟨_, _, last, ran', rewound', read, -⟩
  · cases ran.symm.trans failed
  · cases ran.symm.trans ran'
    cases rewound.symm.trans rewound'
    exact ⟨_, _, last, read, start⟩

theorem InStep.small {heap : Nat → UInt8} {base : Nat} {little : Bool}
    (inStep : InStep host heap base little strings) (positive : 1 ≤ base) :
    ∀ value ∈ strings, value.length < 2 ^ 16 := by
  obtain ⟨order, start, last, read, cursor⟩ := inStep.read positive
  exact readStrings_small cursor.inv read

theorem InStep.partly {heap : Nat → UInt8} {base : Nat} {little : Bool}
    (inStep : InStep host heap base little strings) (positive : 1 ≤ base)
    (empty : strings.getLast? = some []) : ¬base ∣ total strings := by
  obtain ⟨order, start, last, read, cursor⟩ := inStep.read positive
  have small := inStep.small positive
  obtain ⟨before, rfl⟩ := List.getLast?_eq_some_iff.mp empty
  have ends := total_last before
  rw [← lt_grown_iff positive (by omega)]
  by_contra full
  have bound := cursor.end_le
  rw [flatMap_stringBytes_length] at bound
  rw [← List.append_nil (List.flatMap _ _)] at cursor
  have faulted := cursor.readStrings_null
    (fun value member => small value (List.mem_append_left _ member)) (by omega)
  cases faulted.symm.trans read

/-- The strings are read back when each length fits its prefix, unless the last is
empty and its prefix fills the last node. -/
theorem strings_in_step_iff (host : Host) (heap : Nat → UInt8) {base : Nat}
    (positive : 1 ≤ base) (little : Bool) (strings : List Bytes) :
    InStep host heap base little strings ↔
      (∀ value ∈ strings, value.length < 2 ^ 16) ∧
      (strings.getLast? = some [] → ¬base ∣ total strings) := by
  constructor
  · exact fun inStep => ⟨inStep.small positive, inStep.partly positive⟩
  · rintro ⟨small, partly⟩
    obtain ⟨written, ran, rewound, size, start⟩ := @strings_written host
      (if little then .little else .big) heap base positive strings
    rw [← List.append_nil (strings.flatMap _)] at start
    obtain ⟨last, read, finished⟩ := start.readStrings small (by
      intro empty
      obtain ⟨before, rfl⟩ := List.getLast?_eq_some_iff.mp empty
      have ends := total_last before
      rw [Nat.zero_add]
      exact (lt_grown_iff positive (by omega)).mpr (partly empty))
    have rest := finished.inv.unread_length
    have bound := finished.inv.position_le
    have place := finished.position
    rw [finished.unread, List.length_nil, getReadSize] at rest
    exact ⟨_, rfl, .inr ⟨written, _, last, ran, rewound, read, by omega, by omega⟩⟩

/-- The longest string that fits, and an empty one, in nodes of three bytes. -/
theorem strings_in_step_longest :
    InStep ⟨.little, .little⟩ (fun _ => 0) 3 false
      [List.replicate 65535 0x41, []] := by
  refine (strings_in_step_iff _ _ (by decide) _ _).mpr ⟨?_, fun _ => ?_⟩
  · refine List.forall_mem_cons.mpr ⟨?_, by simp⟩
    rw [List.length_replicate]
    decide
  · rw [total_cons, List.length_replicate]
    decide

/-- The length 65536 is written as 0, and an empty string at the end of a node
dereferences the null `m_cur`. -/
theorem strings_in_step_not :
    ¬InStep ⟨.little, .little⟩ (fun _ => 0) 4096 true
      [List.replicate 65536 0x41] ∧
    ¬InStep ⟨.little, .little⟩ (fun _ => 0) 2 true [[]] := by
  constructor
  · intro inStep
    have small := inStep.small (by decide) _ List.mem_cons_self
    rw [List.length_replicate] at small
    exact absurd small (by decide)
  · intro inStep
    exact inStep.partly (by decide) rfl (by decide)

end ByteArray

end Sylar
