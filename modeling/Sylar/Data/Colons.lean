import Mathlib.Algebra.Group.Nat.Defs
import Mathlib.Data.List.Basic
import Sylar.Data.Text

namespace Sylar.Data

/-! Groups of hexadecimal digits with colons between them, where a double colon
stands for missing groups that are zero. -/

def hexDigit (c : Char) : Option Nat :=
  if '0' ≤ c ∧ c ≤ '9' then some (c.toNat - '0'.toNat)
  else if 'a' ≤ c ∧ c ≤ 'f' then some (10 + (c.toNat - 'a'.toNat))
  else if 'A' ≤ c ∧ c ≤ 'F' then some (10 + (c.toNat - 'A'.toNat))
  else none

def ofHexadecimal (text : Text) : Option Nat :=
  text.foldlM (fun value c => (hexDigit c).map (16 * value + ·)) 0

/-- One to four digits. -/
def group (text : Text) : Option Nat :=
  if text ≠ [] ∧ text.length ≤ 4 then ofHexadecimal text else none

/-- The groups on one side of a double colon, or of a text without one. -/
def groups (text : Text) : Option (List Nat) :=
  if text = [] then some [] else (text.splitOn ':').mapM group

/-- The text before the first double colon and the one behind it. -/
def cut : Text → Option (Text × Text)
  | [] => none
  | c :: rest =>
      if c = ':' ∧ rest.head? = some ':' then some ([], rest.tail)
      else (cut rest).map fun (before, after) => (c :: before, after)

/-- What a text says of `count` groups; a double colon is at least one. -/
def expand (count : Nat) (text : Text) : Option (List Nat) :=
  match cut text with
  | none => do
      let all ← groups text
      if all.length = count then some all else none
  | some (before, after) => do
      let front ← groups before
      let back ← groups after
      if front.length + back.length < count then
        some (front ++
          List.replicate (count - (front.length + back.length)) 0 ++ back)
      else none

/-- The number of places where a double colon starts. -/
def doubles : Text → Nat
  | [] => 0
  | c :: rest =>
      doubles rest + if c = ':' ∧ rest.head? = some ':' then 1 else 0

def join (values : List Nat) : Text :=
  [':'].intercalate (values.map hexadecimal)

theorem ofHexadecimal_hexadecimal (value : Nat) :
    ofHexadecimal (hexadecimal value) = some value := by
  have digit : ∀ digit < 16, hexDigit digit.digitChar = some digit := by decide
  induction value using Nat.strongRecOn with
  | ind value ih =>
      unfold hexadecimal
      rw [Nat.toDigits_eq_if (by decide)]
      split
      · rename_i small
        simp [ofHexadecimal, digit value small]
      · rename_i large
        have rest := ih (value / 16) (Nat.div_lt_self (by omega) (by decide))
        have last := digit (value % 16) (Nat.mod_lt _ (by decide))
        unfold ofHexadecimal hexadecimal at rest
        rw [ofHexadecimal, List.foldlM_append, rest]
        simp [last, Nat.div_add_mod]

theorem group_hexadecimal {value : Nat} (small : value < 2 ^ 16) :
    group (hexadecimal value) = some value := by
  have short : (hexadecimal value).length ≤ 4 :=
    (Nat.length_toDigits_le_iff (by decide) (by decide)).mpr small
  rw [group, if_pos ⟨hexadecimal_ne_nil value, short⟩,
    ofHexadecimal_hexadecimal]

theorem colon_not_mem (value : Nat) : ':' ∉ hexadecimal value :=
  not_mem_hexadecimal (by decide) value

theorem doubles_append {before after : Text}
    (apart : before.getLast? ≠ some ':' ∨ after.head? ≠ some ':') :
    doubles (before ++ after) = doubles before + doubles after := by
  induction before with
  | nil => simp [doubles]
  | cons c rest ih =>
      cases rest with
      | nil =>
          rw [List.singleton_append, doubles, doubles]
          have single : ¬ (c = ':' ∧ after.head? = some ':') := by
            rintro ⟨rfl, next⟩
            simp [next] at apart
          simp [single, doubles]
      | cons d rest =>
          have later : (d :: rest).getLast? ≠ some ':' ∨ after.head? ≠ some ':' := by
            rwa [List.getLast?_cons_cons] at apart
          rw [List.cons_append, doubles, ih later, doubles.eq_def (c :: d :: rest)]
          simp only [List.cons_append, List.head?_cons]
          exact Nat.add_right_comm _ _ _

theorem doubles_plain {text : Text} (plain : ':' ∉ text) : doubles text = 0 := by
  induction text with
  | nil => rfl
  | cons c rest ih =>
      obtain ⟨other, later⟩ := List.ne_and_not_mem_of_not_mem_cons plain
      simp [doubles, ih later, Ne.symm other]

theorem cut_none {text : Text} (single : doubles text = 0) : cut text = none := by
  induction text with
  | nil => rfl
  | cons c rest ih =>
      rw [doubles, Nat.add_eq_zero_iff] at single
      obtain ⟨later, here⟩ := single
      have apart : ¬ (c = ':' ∧ rest.head? = some ':') := by
        intro double
        rw [if_pos double] at here
        cases here
      rw [cut, if_neg apart, ih later]
      rfl

theorem cut_double {before : Text} (single : doubles before = 0)
    (ended : before.getLast? ≠ some ':') (after : Text) :
    cut (before ++ ':' :: ':' :: after) = some (before, after) := by
  induction before with
  | nil => rfl
  | cons c rest ih =>
      rw [doubles, Nat.add_eq_zero_iff] at single
      obtain ⟨later, here⟩ := single
      cases rest with
      | nil =>
          have other : c ≠ ':' := by simpa using ended
          simp [cut, other]
      | cons d rest =>
          have apart : ¬ (c = ':' ∧ (d :: rest).head? = some ':') := by
            intro double
            rw [if_pos double] at here
            cases here
          rw [List.getLast?_cons_cons] at ended
          have rest_cut := ih later ended
          rw [List.cons_append] at rest_cut
          rw [List.cons_append, List.cons_append, cut, rest_cut]
          exact if_neg apart

@[simp] theorem join_nil : join [] = [] := rfl

@[simp] theorem join_singleton (value : Nat) : join [value] = hexadecimal value := by
  simp [join]

theorem join_cons_cons (value next : Nat) (values : List Nat) :
    join (value :: next :: values) =
      hexadecimal value ++ ':' :: join (next :: values) := by
  simp [join, List.intercalate_cons_cons]

theorem join_snoc {values : List Nat} (present : values ≠ []) (last : Nat) :
    join (values ++ [last]) = join values ++ ':' :: hexadecimal last := by
  induction values with
  | nil => exact absurd rfl present
  | cons value values ih =>
      cases values with
      | nil => simp [join_cons_cons]
      | cons next values =>
          have rest := ih (by simp)
          simp only [List.cons_append] at rest ⊢
          rw [join_cons_cons, rest, join_cons_cons]
          simp

theorem join_ne_nil {values : List Nat} (present : values ≠ []) :
    join values ≠ [] := by
  obtain ⟨value, values, rfl⟩ := List.exists_cons_of_ne_nil present
  cases values with
  | nil => simp [hexadecimal_ne_nil]
  | cons next values => simp [join_cons_cons]

/-- Digits stand at both ends of what is joined, and no colons together. -/
theorem join_spec (values : List Nat) :
    doubles (join values) = 0 ∧ (join values).head? ≠ some ':' ∧
      (join values).getLast? ≠ some ':' := by
  induction values with
  | nil => simp [doubles]
  | cons value values ih =>
      have plain := colon_not_mem value
      have first : (hexadecimal value).head? ≠ some ':' :=
        fun here => plain (List.mem_of_head? here)
      have last : (hexadecimal value).getLast? ≠ some ':' :=
        fun here => plain (List.mem_of_getLast? here)
      have present := hexadecimal_ne_nil value
      cases values with
      | nil =>
          rw [join_singleton]
          exact ⟨doubles_plain plain, first, last⟩
      | cons next values =>
          obtain ⟨single, head, ended⟩ := ih
          rw [join_cons_cons]
          refine ⟨?_, ?_, ?_⟩
          · rw [doubles_append (.inl last), doubles_plain plain, doubles,
              single]
            simp [head]
          · rwa [List.head?_append_of_ne_nil _ present]
          · rwa [List.getLast?_append_of_ne_nil _ (by simp),
              List.getLast?_cons_of_ne_nil (join_ne_nil (by simp))]

theorem groups_join {values : List Nat}
    (small : ∀ value ∈ values, value < 2 ^ 16) :
    groups (join values) = some values := by
  by_cases present : values = []
  · rw [present]
    rfl
  · have each : (values.map hexadecimal).mapM group = some values := by
      clear present
      induction values with
      | nil => rfl
      | cons value values ih =>
          obtain ⟨here, later⟩ := List.forall_mem_cons.mp small
          rw [List.map_cons, List.mapM_cons, group_hexadecimal here, ih later]
          rfl
    have fields : (join values).splitOn ':' = values.map hexadecimal := by
      apply List.splitOn_intercalate
      · simp [colon_not_mem]
      · simpa using present
    rw [groups, if_neg (join_ne_nil present), fields, each]

theorem expand_join {values : List Nat}
    (small : ∀ value ∈ values, value < 2 ^ 16) :
    expand values.length (join values) = some values := by
  rw [expand, cut_none (join_spec values).1]
  simp [groups_join small]

theorem expand_double {front back : List Nat} {missing : Nat}
    (positive : 0 < missing) (small : ∀ value ∈ front, value < 2 ^ 16)
    (low : ∀ value ∈ back, value < 2 ^ 16) :
    expand (front.length + missing + back.length)
        (join front ++ ':' :: ':' :: join back) =
      some (front ++ List.replicate missing 0 ++ back) := by
  obtain ⟨single, -, ended⟩ := join_spec front
  have left : front.length + missing + back.length -
      (front.length + back.length) = missing := by omega
  rw [expand, cut_double single ended]
  simp [groups_join small, groups_join low, left, Nat.ne_of_gt positive]

theorem doubles_double (front back : List Nat) :
    doubles (join front ++ ':' :: ':' :: join back) = 1 := by
  obtain ⟨before, -, ended⟩ := join_spec front
  obtain ⟨after, head, -⟩ := join_spec back
  rw [doubles_append (.inl ended), before, doubles, doubles, after]
  simp [head]

end Sylar.Data
