import Sylar.Config.Yaml
import Sylar.Logic.Reach

namespace Sylar.Config

open YAML Logic

/-! `Lookup`, and `LoadFromYaml` on a document. `K` are the types of variables, `V`
their values. -/

/-- The characters of a name, as `Lookup` and `ListAllMember` list them. -/
def listed : List Char := "abcdefghikjlmnopqrstuvwxyz._012345678".toList

/-- `find_first_not_of` finds nothing. -/
def valid (name : String) : Bool :=
  name.toList.all fun c => listed.contains c

structure ConfigVar (K V : Type) where
  type : K
  value : V

abbrev ConfigVarMap (K V : Type) := String → Option (ConfigVar K V)

variable {K V : Type} [DecidableEq K]

/-- The answer, where `none` is `nullptr` and an error the `invalid_argument`, and
the map afterwards. -/
def lookup (s_datas : ConfigVarMap K V) (name : String) (type : K)
    (default_value : V) :
    Except String (Option (ConfigVar K V)) × ConfigVarMap K V :=
  match s_datas name with
  | some tmp => (.ok (if tmp.type = type then some tmp else none), s_datas)
  | none =>
      if !valid name then (.error name, s_datas)
      else
        (.ok (some ⟨type, default_value⟩),
          Function.update s_datas name (some ⟨type, default_value⟩))

def extend (parent key : String) : String :=
  if parent.isEmpty then key else parent ++ "." ++ key

mutual
def listAllMember (parent : String) : YAML.Node → List (String × YAML.Node)
  | .map entries =>
      if valid parent then (parent, .map entries) :: listEntries parent entries
      else []
  | node => if valid parent then [(parent, node)] else []

def listEntries (parent : String) : List (YAML.Node × YAML.Node) → List (String × YAML.Node)
  | [] => []
  | (first, second) :: rest =>
      listAllMember (extend parent first.text) second ++ listEntries parent rest
end

/-- `tolower` on each character. -/
def lower (name : String) : String :=
  String.ofList (name.toList.map Char.toLower)

/-- What `fromString` is given for a node. -/
def content (yaml : Yaml) : YAML.Node → String
  | .scalar text => text
  | node => yaml.emit node

/-- The calls of `fromString`, each with the name of its variable. -/
def loadFromYaml (yaml : Yaml) (s_datas : ConfigVarMap K V) (root : YAML.Node) :
    List (String × String) :=
  ((listAllMember "" root).filter fun i =>
    !i.1.isEmpty && (s_datas (lower i.1)).isSome).map fun i =>
      (lower i.1, content yaml i.2)

/-! What they are for. -/

/-- `[0-9a-z_.]` -/
def documented : List Char := "0123456789abcdefghijklmnopqrstuvwxyz_.".toList

def overAlphabet (name : String) : Bool :=
  name.toList.all fun c => documented.contains c

mutual
/-- Every node of a document, with the keys that lead to it. -/
def nodes : YAML.Node → List (List String × YAML.Node)
  | .map entries => ([], .map entries) :: nodesBelow entries
  | node => [([], node)]

def nodesBelow : List (YAML.Node × YAML.Node) → List (List String × YAML.Node)
  | [] => []
  | (first, second) :: rest =>
      ((nodes second).map fun i => (first.text :: i.1, i.2)) ++ nodesBelow rest
end

/-- The keys joined by dots, without the empty ones in front. -/
def dotted (keys : List String) : String :=
  ".".intercalate (keys.dropWhile String.isEmpty)

/-- The nodes that have a dotted path, by it. -/
def members (root : YAML.Node) : List (String × YAML.Node) :=
  (nodes root).map fun i => (dotted i.1, i.2)

/-- The calls of `fromString` that are due: one for each node with a dotted path that
names a variable. -/
def dueCalls (yaml : Yaml) (s_datas : ConfigVarMap K V) (root : YAML.Node) :
    List (String × String) :=
  ((members root).filter fun i =>
    !i.1.isEmpty && (s_datas (lower i.1)).isSome).map fun i =>
      (lower i.1, content yaml i.2)

def Registers (s_datas : ConfigVarMap K V) (name : String) (type : K)
    (default_value : V) : Prop :=
  ((lookup s_datas name type default_value).2 name).isSome = true

/-- What calls of `Lookup` can make of the map. -/
def Registered (s_datas : ConfigVarMap K V) : Prop :=
  Reach (fun start : ConfigVarMap K V => start = fun _ => none)
    (StepOf fun s_datas (call : String × K × V) =>
      some (lookup s_datas call.1 call.2.1 call.2.2).2) s_datas

theorem valid_iff (name : String) : valid name = true ↔ ∀ c ∈ name.toList, c ∈ listed := by
  simp [valid]

theorem listed_iff (c : Char) : c ∈ listed ↔ c ∈ documented ∧ c ≠ '9' := by
  have there : listed.all (fun c => documented.contains c && c != '9') = true := by
    decide
  have back : documented.all (fun c => c == '9' || listed.contains c) = true := by
    decide
  rw [List.all_eq_true] at there back
  constructor
  · intro member
    simpa using there c member
  · rintro ⟨member, other⟩
    simpa [other] using back c member

theorem valid_extend (parent key : String) :
    valid (extend parent key) = (valid parent && valid key) := by
  have dot : '.' ∈ listed := by decide
  unfold extend
  split
  · rename_i empty
    rw [String.isEmpty_iff] at empty
    subst empty
    rfl
  · simp [valid, dot]

theorem valid_foldl {parent : String} {keys : List String}
    (ok : valid (keys.foldl extend parent) = true) : valid parent = true := by
  induction keys generalizing parent with
  | nil => exact ok
  | cons key rest ih =>
      have first := ih ok
      rw [valid_extend, Bool.and_eq_true] at first
      exact first.1

/-- An invalid name drops what is below it, which has no valid name either. -/
theorem filter_invalid {parent : String} (wrong : valid parent = false)
    (entries : List (List String × YAML.Node)) :
    ((entries.map fun i => (i.1.foldl extend parent, i.2)).filter fun i =>
      valid i.1) = [] := by
  rw [List.filter_eq_nil_iff]
  intro i member ok
  obtain ⟨⟨keys, node⟩, -, rfl⟩ := List.mem_map.mp member
  rw [valid_foldl ok] at wrong
  cases wrong

mutual
theorem listAllMember_eq (parent : String) : (node : YAML.Node) →
    listAllMember parent node =
      ((nodes node).map fun i => (i.1.foldl extend parent, i.2)).filter fun i =>
        valid i.1
  | .map entries => by
      rw [listAllMember, nodes, List.map_cons, List.filter_cons, List.foldl_nil]
      split
      · rw [listEntries_eq]
      · rename_i wrong
        rw [filter_invalid (by simpa using wrong)]
  | .null => by simp [listAllMember, nodes, List.filter_cons]
  | .scalar text => by simp [listAllMember, nodes, List.filter_cons]
  | .sequence items => by simp [listAllMember, nodes, List.filter_cons]

theorem listEntries_eq (parent : String) : (entries : List (YAML.Node × YAML.Node)) →
    listEntries parent entries =
      ((nodesBelow entries).map fun i => (i.1.foldl extend parent, i.2)).filter
        fun i => valid i.1
  | [] => rfl
  | (first, second) :: rest => by
      rw [listEntries, nodesBelow, listAllMember_eq, listEntries_eq, List.map_append,
        List.filter_append, List.map_map]
      rfl
end

theorem foldl_extend {parent : String} (some : parent.isEmpty = false)
    (keys : List String) : keys.foldl extend parent = ".".intercalate (parent :: keys) := by
  induction keys generalizing parent with
  | nil => rfl
  | cons key keys ih =>
      have joined : extend parent key = parent ++ "." ++ key := by
        rw [extend, some]
        rfl
      have longer : (parent ++ "." ++ key).isEmpty = false := by
        rw [← Bool.not_eq_true, String.isEmpty_iff]
        intro empty
        have lengths := congrArg String.length empty
        rw [String.length_append, String.length_append] at lengths
        exact absurd (Nat.eq_zero_of_add_eq_zero_right lengths) (Nat.succ_ne_zero _)
      rw [List.foldl_cons, joined, ih longer]
      rfl

/-- An empty path is left behind by the first key below it. -/
theorem dotted_eq (keys : List String) : dotted keys = keys.foldl extend "" := by
  induction keys with
  | nil => rfl
  | cons key keys ih =>
      have first : extend "" key = key := rfl
      rw [dotted, List.foldl_cons, first, List.dropWhile_cons]
      split
      · rename_i empty
        rw [String.isEmpty_iff.mp empty]
        exact ih
      · rename_i some
        exact (foldl_extend (by simpa using some) keys).symm

theorem listAllMember_members (root : YAML.Node) :
    listAllMember "" root = (members root).filter fun i => valid i.1 := by
  have same : dotted = fun keys => keys.foldl extend "" := funext dotted_eq
  rw [members, same]
  exact listAllMember_eq "" root

/-! A name in lower case, and the names of variables. -/

theorem lower_of_valid {name : String} (ok : valid name = true) : lower name = name := by
  have small : listed.all (fun c => c.toLower == c) = true := by decide
  rw [List.all_eq_true] at small
  rw [valid_iff] at ok
  have same : name.toList.map Char.toLower = name.toList := by
    conv_rhs => rw [← List.map_id name.toList]
    exact List.map_congr_left fun c member => beq_iff_eq.mp (small c (ok c member))
  rw [lower, same, String.ofList_toList]

theorem lookup_cases (s_datas : ConfigVarMap K V) (name : String) (type : K)
    (default_value : V) :
    (lookup s_datas name type default_value).2 = s_datas ∧
        ((s_datas name).isSome = true ∨ valid name = false) ∨
      (lookup s_datas name type default_value).2 =
        Function.update s_datas name (some ⟨type, default_value⟩) ∧
        valid name = true := by
  unfold lookup
  split
  · rename_i tmp found
    exact .inl ⟨rfl, .inl (by rw [found]; rfl)⟩
  · split
    · rename_i wrong
      exact .inl ⟨rfl, .inr (by simpa using wrong)⟩
    · rename_i ok
      exact .inr ⟨rfl, by simpa using ok⟩

theorem Registered.valid {s_datas : ConfigVarMap K V} (reached : Registered s_datas) :
    ∀ name, (s_datas name).isSome = true → Config.valid name = true := by
  refine @Reach.invariant _ _ _ _ (fun s_datas : ConfigVarMap K V => ∀ name,
    (s_datas name).isSome = true → Config.valid name = true) ?_ ?_ _ reached
  · rintro start rfl name present
    cases present
  · rintro before ⟨called, type, default_value⟩ after before_valid taken name present
    cases taken
    rcases lookup_cases before called type default_value with ⟨same, -⟩ | ⟨added, ok⟩
    · rw [same] at present
      exact before_valid name present
    · rw [added] at present
      rcases eq_or_ne name called with rfl | other
      · exact ok
      · rw [Function.update_of_ne other] at present
        exact before_valid name present

theorem registers_iff {s_datas : ConfigVarMap K V} (reached : Registered s_datas)
    {name : String} (inside : overAlphabet name = true) (type : K)
    (default_value : V) :
    Registers s_datas name type default_value ↔ '9' ∉ name.toList := by
  have nine : Config.valid name = true ↔ '9' ∉ name.toList := by
    rw [valid_iff]
    constructor
    · exact fun ok member => ((listed_iff '9').mp (ok '9' member)).2 rfl
    · intro absent c member
      have alphabet := List.all_eq_true.mp inside c member
      exact (listed_iff c).mpr
        ⟨List.contains_iff_mem.mp alphabet, fun same => absent (same ▸ member)⟩
  rw [← nine, Registers]
  rcases lookup_cases s_datas name type default_value with
    ⟨same, there | wrong⟩ | ⟨added, ok⟩
  · rw [same]
    simp [there, reached.valid name there]
  · rw [same]
    refine ⟨reached.valid name, fun ok => ?_⟩
    rw [wrong] at ok
    cases ok
  · rw [added, ok]
    simp

theorem loads_iff {s_datas : ConfigVarMap K V} (reached : Registered s_datas)
    (yaml : Yaml) (root : YAML.Node) :
    loadFromYaml yaml s_datas root = dueCalls yaml s_datas root ↔
      ∀ i ∈ members root, (s_datas (lower i.1)).isSome = true → lower i.1 = i.1 := by
  rw [loadFromYaml, listAllMember_members, List.filter_comm, dueCalls]
  constructor
  · intro same i member present
    have lengths := congrArg List.length same
    rw [List.length_map, List.length_map] at lengths
    have whole := List.filter_sublist.eq_of_length lengths
    by_cases empty : i.1.isEmpty = true
    · rw [String.isEmpty_iff.mp empty]
      rfl
    · have wanted : (!i.1.isEmpty && (s_datas (lower i.1)).isSome) = true := by
        simp [empty, present]
      exact lower_of_valid
        (List.filter_eq_self.mp whole i (List.mem_filter.mpr ⟨member, wanted⟩))
  · intro small
    congr 1
    rw [List.filter_eq_self]
    intro i wanted
    obtain ⟨member, named⟩ := List.mem_filter.mp wanted
    rw [Bool.and_eq_true] at named
    rw [← small i member named.2]
    exact reached.valid _ named.2

/-- `Lookup` registers the documented names without a 9, and a document is loaded
whole when no key on the way to a variable has an upper-case letter. -/
theorem settings_iff {s_datas : ConfigVarMap K V} (reached : Registered s_datas) :
    (∀ name, overAlphabet name = true → ∀ type default_value,
      (Registers s_datas name type default_value ↔ '9' ∉ name.toList)) ∧
    ∀ yaml root, loadFromYaml yaml s_datas root = dueCalls yaml s_datas root ↔
      ∀ i ∈ members root, (s_datas (lower i.1)).isSome = true → lower i.1 = i.1 :=
  ⟨fun _ inside => registers_iff reached inside, loads_iff reached⟩

theorem registered_one (name : String) (type : K) (default_value : V) :
    Registered (lookup (fun _ => none) name type default_value).2 :=
  .step _ (name, type, default_value) _ (.start _ rfl) rfl

/-- A variable below a map. -/
theorem settings_nested :
    ∃ s_datas : ConfigVarMap Unit String,
      Registers s_datas "tcp.port_8" () "" ∧
      loadFromYaml .plain s_datas (.ofFields [("system", .scalar "x"),
        ("tcp", .ofFields [("port", .scalar "80")])]) = [("tcp.port", "80")] ∧
      loadFromYaml .plain s_datas (.ofFields [("system", .scalar "x"),
        ("tcp", .ofFields [("port", .scalar "80")])]) =
      dueCalls .plain s_datas (.ofFields [("system", .scalar "x"),
        ("tcp", .ofFields [("port", .scalar "80")])]) := by
  obtain ⟨names, documents⟩ := settings_iff
    (registered_one "tcp.port" () "" : Registered (lookup _ "tcp.port" () "").2)
  refine ⟨_, (names "tcp.port_8" (by decide) () "").mpr (by decide), by decide,
    (documents .plain _).mpr (by decide)⟩

/-- A name with a 9 is refused, and a key in upper case drops what is below it. -/
theorem settings_dropped :
    (lookup (fun _ => none : ConfigVarMap Unit String) "log.level9" () "").1 =
        .error "log.level9" ∧
      ¬Registers (fun _ => none : ConfigVarMap Unit String) "log.level9" () "" ∧
    ∃ s_datas : ConfigVarMap Unit String, Registered s_datas ∧
      loadFromYaml .plain s_datas
        (.ofFields [("TCP", .ofFields [("port", .scalar "80")])]) = [] ∧
      dueCalls .plain s_datas
        (.ofFields [("TCP", .ofFields [("port", .scalar "80")])]) =
          [("tcp.port", "80")] := by
  refine ⟨by rfl, ?_, _, registered_one "tcp.port" () "", by decide, by decide⟩
  rw [Registers]
  decide

end Sylar.Config
