import Mathlib.Data.List.Lex
import Mathlib.Data.Prod.Lex
import Sylar.Config.TcpServerConf

namespace Sylar.LexicalCast

open Data YAML

/-! `LexicalCast` between strings and containers of containers. -/

/-- The type of a variable: containers around a type `L` with a cast of its own. -/
inductive Shape
  | leaf
  /-- `std::vector` and `std::list` -/
  | vector (item : Shape)
  | set (item : Shape)
  /-- with strings for keys -/
  | map (item : Shape)

namespace Shape

def Value (L : Type) : Shape → Type
  | leaf => L
  | vector item => List (item.Value L)
  | set item => List (item.Value L)
  | map item => StringMap (item.Value L)

def setless : Shape → Bool
  | leaf => true
  | vector item => item.setless
  | set _ => false
  | map item => item.setless

def Every (property : T → Prop) (v : List T) : Prop := ∀ i ∈ v, property i

def values (m : StringMap T) : List T := m.entries.map Prod.snd

def pairs (m : StringMap T) : List (Lex (String × T)) :=
  m.entries.map toLex

theorem pairs_injective : Function.Injective (pairs (T := T)) := by
  intro m other same
  cases m
  cases other
  have entries := (List.map_injective_iff.mpr toLex.injective) same
  cases entries
  rfl

/-- `operator<` -/
@[reducible] def order (L : Type) [LinearOrder L] : (shape : Shape) → LinearOrder (shape.Value L)
  | leaf => inferInstanceAs (LinearOrder L)
  | vector item =>
      have := item.order L
      inferInstanceAs (LinearOrder (List (item.Value L)))
  | set item =>
      have := item.order L
      inferInstanceAs (LinearOrder (List (item.Value L)))
  | map item =>
      have := item.order L
      LinearOrder.lift' (pairs (T := item.Value L)) pairs_injective

instance [LinearOrder L] (shape : Shape) : LinearOrder (shape.Value L) := shape.order L

/-- Every set in the value is one. -/
def Valid [LinearOrder L] : (shape : Shape) → shape.Value L → Prop
  | leaf, _ => True
  | vector item, v => Every item.Valid v
  | set item, v => OrderedSet.Sorted (id : item.Value L → _) v ∧ Every item.Valid v
  | map item, v => Every item.Valid (values v)

def leaves : (shape : Shape) → shape.Value L → List L
  | leaf, v => [v]
  | vector item, v => (v : List (item.Value L)).flatMap item.leaves
  | set item, v => (v : List (item.Value L)).flatMap item.leaves
  | map item, v => (values v).flatMap item.leaves

end Shape

variable (yaml : Yaml)

/-- A node of the type `Sequence` after `push_back` of each item. -/
def itemsToNode (cast : T → Option String) (v : List T) : Option Node := do
  let nodes ← v.mapM fun i => do
    let text ← cast i
    yaml.load text
  return .sequence nodes

/-- Nothing is written for an undefined node. -/
def emitted : Option Node → String
  | none => ""
  | some node => yaml.emit node

def stringToVector (cast : String → Option T) (v : String) : Option (List T) := do
  let node ← yaml.load v
  node.elements.mapM fun i => cast (emitted yaml i)

def stringToSet [LinearOrder T] (cast : String → Option T) (v : String) :
    Option (List T) := do
  let node ← yaml.load v
  node.elements.foldlM (fun vec i => do
    let val ← cast (emitted yaml i)
    return OrderedSet.insert id val vec) []

/-- The casts of the innermost type. -/
structure Cast (L : Type) where
  toString : L → Option String
  fromString : String → Option L

def toString (cast : Cast L) : (shape : Shape) → shape.Value L → Option String
  | .leaf, v => cast.toString v
  | .vector item, v => (itemsToNode yaml (toString cast item) v).map yaml.emit
  | .set item, v => (itemsToNode yaml (toString cast item) v).map yaml.emit
  | .map item, v => mapToString yaml (toString cast item) v

def fromString [LinearOrder L] (cast : Cast L) :
    (shape : Shape) → String → Option (shape.Value L)
  | .leaf, v => cast.fromString v
  | .vector item, v => stringToVector yaml (fromString cast item) v
  | .set item, v => stringToSet yaml (fromString cast item) v
  | .map item, v => stringToMap yaml (fromString cast item) v

/-- The node of a container comes back from its text, and so for those inside. -/
def Reloads (cast : Cast L) : (shape : Shape) → shape.Value L → Prop
  | .leaf, _ => True
  | .vector item, v =>
      (∀ node, itemsToNode yaml (toString yaml cast item) v = some node →
        yaml.load (yaml.emit node) = some node) ∧
      Shape.Every (Reloads cast item) v
  | .set item, v =>
      (∀ node, itemsToNode yaml (toString yaml cast item) v = some node →
        yaml.load (yaml.emit node) = some node) ∧
      Shape.Every (Reloads cast item) v
  | .map item, v =>
      (∀ node, mapToNode yaml (toString yaml cast item) v = some node →
        yaml.load (yaml.emit node) = some node) ∧
      Shape.Every (Reloads cast item) (Shape.values v)

/-- A text is loaded and written again before an item is read from it. -/
def pass (cast : T → Option String) (back : String → Option T) (v : T) : Option T := do
  let text ← cast v
  let node ← yaml.load text
  back (yaml.emit node)

variable {yaml}

section Lists

variable {α β γ σ : Type}

theorem mapM_bind_mapM (first : α → Option β) (second : β → Option γ) (list : List α) :
    ((list.mapM first).bind fun between => between.mapM second) =
      list.mapM fun i => (first i).bind second := by
  induction list with
  | nil => rfl
  | cons i rest ih =>
      rw [List.mapM_cons, List.mapM_cons, ← ih]
      cases first i with
      | none => rfl
      | some one =>
          cases rest.mapM first with
          | none => simp
          | some between => simp [List.mapM_cons]

theorem mapM_eq_self_iff (turn : α → Option α) (list : List α) :
    list.mapM turn = some list ↔ ∀ i ∈ list, turn i = some i := by
  induction list with
  | nil => simp
  | cons i rest ih =>
      rw [List.forall_mem_cons, ← ih, List.mapM_cons]
      cases turn i with
      | none => simp
      | some j =>
          cases rest.mapM turn with
          | none => simp
          | some others => simp

theorem mapM_map {first : α → Option β} {second : α → β} {list : List α}
    (each : ∀ i ∈ list, first i = some (second i)) :
    list.mapM first = some (list.map second) := by
  induction list with
  | nil => rfl
  | cons i rest ih =>
      obtain ⟨here, later⟩ := List.forall_mem_cons.mp each
      rw [List.mapM_cons, here, ih later]
      rfl

/-- What no element changes stays. -/
theorem map_of_mapM {turn : α → Option α} {key : α → β}
    (keeps : ∀ i j, turn i = some j → key j = key i) {list after : List α}
    (turned : list.mapM turn = some after) : after.map key = list.map key := by
  induction list generalizing after with
  | nil =>
      cases turned
      rfl
  | cons i rest ih =>
      rw [List.mapM_cons] at turned
      obtain ⟨j, first, turned⟩ := Option.bind_eq_some_iff.mp turned
      obtain ⟨others, later, made⟩ := Option.bind_eq_some_iff.mp turned
      cases made
      rw [List.map_cons, List.map_cons, keeps i j first, ih later]

theorem foldlM_eq_mapM (turn : α → Option β) (add : β → σ → σ) (list : List α) (start : σ) :
    (list.foldlM (fun state i => do
      let val ← turn i
      return add val state) start) =
      (list.mapM turn).map fun vals => vals.foldl (fun state val => add val state) start := by
  induction list generalizing start with
  | nil => rfl
  | cons i rest ih =>
      rw [List.foldlM_cons, List.mapM_cons]
      cases turn i with
      | none => rfl
      | some val =>
          change rest.foldlM _ (add val start) = _
          rw [ih]
          cases rest.mapM turn <;> rfl

end Lists

section Passes

variable {T : Type} {cast : T → Option String} {back : String → Option T}

/-- A container whose node comes back from its text is as good inside of another
container as on its own. -/
theorem pass_emit (build : T → Option Node) (v : T)
    (reloads : ∀ node, build v = some node → yaml.load (yaml.emit node) = some node) :
    pass yaml (fun v => (build v).map yaml.emit) back v =
      ((build v).map yaml.emit).bind back := by
  unfold pass
  dsimp only
  cases built : build v with
  | none => rfl
  | some node =>
      change ((yaml.load (yaml.emit node)).bind fun node => back (yaml.emit node)) = _
      rw [reloads node built]
      rfl

/-- A reader of items gets the nodes that were written. -/
theorem read_items (read : List (Option Node) → Option S) (v : List T)
    (reloads : ∀ node, itemsToNode yaml cast v = some node →
      yaml.load (yaml.emit node) = some node) :
    (((itemsToNode yaml cast v).map yaml.emit).bind fun text =>
        (yaml.load text).bind fun node => read node.elements) =
      (v.mapM fun i => (cast i).bind yaml.load).bind fun nodes => read (nodes.map some) := by
  have node : itemsToNode yaml cast v =
      (v.mapM fun i => (cast i).bind yaml.load).map .sequence := by
    unfold itemsToNode
    exact (Option.map_eq_bind ..).symm
  rw [node] at reloads ⊢
  cases built : v.mapM fun i => (cast i).bind yaml.load with
  | none => rfl
  | some nodes =>
      have loaded := reloads (.sequence nodes) (by rw [built]; rfl)
      simp only [Option.map_some, Option.bind_some, loaded, Node.elements_sequence]

theorem mapM_pass (v : List T) :
    ((v.mapM fun i => (cast i).bind yaml.load).bind fun nodes =>
      nodes.mapM fun node => back (yaml.emit node)) = v.mapM (pass yaml cast back) := by
  rw [mapM_bind_mapM]
  congr 1
  funext i
  exact Option.bind_assoc ..

theorem read_vector (v : List T)
    (reloads : ∀ node, itemsToNode yaml cast v = some node →
      yaml.load (yaml.emit node) = some node) :
    ((itemsToNode yaml cast v).map yaml.emit).bind (stringToVector yaml back) =
      v.mapM (pass yaml cast back) := by
  refine (read_items (fun items => items.mapM fun i => back (emitted yaml i)) v
    reloads).trans ?_
  rw [← mapM_pass]
  congr 1
  funext nodes
  exact List.mapM_map ..

theorem read_set [LinearOrder T] (v : List T)
    (reloads : ∀ node, itemsToNode yaml cast v = some node →
      yaml.load (yaml.emit node) = some node) :
    ((itemsToNode yaml cast v).map yaml.emit).bind (stringToSet yaml back) =
      (v.mapM (pass yaml cast back)).map fun vals =>
        vals.foldl (fun vec val => OrderedSet.insert id val vec) [] := by
  refine (read_items (fun items => items.foldlM (fun vec i => do
    let val ← back (emitted yaml i)
    return OrderedSet.insert id val vec) []) v reloads).trans ?_
  rw [← mapM_pass, Option.map_bind]
  congr 1
  funext nodes
  rw [foldlM_eq_mapM (fun i => back (emitted yaml i))]
  exact congrArg _ (List.mapM_map ..)

theorem entries_foldl (entries : List (String × T)) (start : StringMap T) :
    (entries.foldl (fun vec it => vec.insert it.1 it.2) start).entries =
      entries.foldl (fun set val => OrderedSet.insert Prod.fst val set) start.entries := by
  induction entries generalizing start with
  | nil => rfl
  | cons it rest ih => exact ih (start.insert it.1 it.2)

theorem foldl_entries {entries : List (String × T)}
    (sorted : OrderedSet.Sorted Prod.fst entries) :
    entries.foldl (fun vec it => vec.insert it.1 it.2) StringMap.empty =
      ⟨entries, sorted⟩ := by
  have fold := entries_foldl entries StringMap.empty
  rw [OrderedSet.foldl_insert sorted] at fold
  generalize entries.foldl _ _ = made at fold ⊢
  cases made
  cases fold
  rfl

def writeEntry (yaml : Yaml) (cast : T → Option String) (it : String × T) : Option (Node × Node) :=
  ((cast it.2).bind yaml.load).map (.scalar it.1, ·)

def readEntry (yaml : Yaml) (back : String → Option T) (it : Node × Node) : Option (String × T) :=
  (back (yaml.emit it.2)).map (it.1.text, ·)

/-- What an entry is after a pass of its value. -/
def passEntry (yaml : Yaml) (cast : T → Option String) (back : String → Option T)
    (it : String × T) : Option (String × T) :=
  (pass yaml cast back it.2).map (it.1, ·)

theorem read_map (v : StringMap T)
    (reloads : ∀ node, mapToNode yaml cast v = some node →
      yaml.load (yaml.emit node) = some node) :
    (mapToString yaml cast v).bind (stringToMap yaml back) =
      (v.entries.mapM (passEntry yaml cast back)).map fun entries =>
        entries.foldl (fun vec it => vec.insert it.1 it.2) StringMap.empty := by
  have turns : (fun it => (writeEntry yaml cast it).bind
      (readEntry yaml back)) = passEntry yaml cast back := by
    funext it
    unfold writeEntry readEntry passEntry pass
    cases cast it.2 with
    | none => rfl
    | some text =>
        simp only [Option.bind_eq_bind, Option.bind_some]
        cases yaml.load text <;> rfl
  have node : mapToNode yaml cast v =
      (v.entries.mapM (writeEntry yaml cast)).map .map := by
    have write : writeEntry yaml cast = fun it => do
        let text ← cast it.2
        let node ← yaml.load text
        return (Node.scalar it.1, node) := by
      funext it
      unfold writeEntry
      cases cast it.2 with
      | none => rfl
      | some text =>
          simp only [Option.bind_eq_bind, Option.bind_some]
          cases yaml.load text <;> rfl
    rw [write]
    exact (Option.map_eq_bind ..).symm
  rw [mapToString, ← turns, ← mapM_bind_mapM]
  rw [node] at reloads ⊢
  cases built : v.entries.mapM (writeEntry yaml cast) with
  | none => rfl
  | some entries =>
      have loaded := reloads (.map entries) (by rw [built]; rfl)
      have read := foldlM_eq_mapM (readEntry yaml back)
        (fun it (vec : StringMap T) => vec.insert it.1 it.2) entries StringMap.empty
      rw [Option.map_some, Option.map_some, Option.bind_some, Option.bind_some, ← read]
      unfold stringToMap
      rw [loaded]
      change entries.foldlM _ StringMap.empty = _
      congr 1
      funext vec it
      unfold readEntry
      cases back (yaml.emit it.2) <;> rfl

theorem passes_vector (v : List T)
    (reloads : ∀ node, itemsToNode yaml cast v = some node →
      yaml.load (yaml.emit node) = some node) :
    pass yaml (fun v => (itemsToNode yaml cast v).map yaml.emit) (stringToVector yaml back)
        v = some v ↔
      ∀ i ∈ v, pass yaml cast back i = some i := by
  rw [pass_emit _ v reloads, read_vector v reloads]
  exact mapM_eq_self_iff ..

theorem passes_set [LinearOrder T] (v : List T) (sorted : OrderedSet.Sorted id v)
    (reloads : ∀ node, itemsToNode yaml cast v = some node →
      yaml.load (yaml.emit node) = some node)
    (passes : ∀ i ∈ v, pass yaml cast back i = some i) :
    pass yaml (fun v => (itemsToNode yaml cast v).map yaml.emit) (stringToSet yaml back)
        v = some v := by
  rw [pass_emit _ v reloads, read_set v reloads, (mapM_eq_self_iff ..).mpr passes]
  exact congrArg some (OrderedSet.foldl_insert sorted)

theorem passes_map (v : StringMap T)
    (reloads : ∀ node, mapToNode yaml cast v = some node →
      yaml.load (yaml.emit node) = some node) :
    pass yaml (mapToString yaml cast) (stringToMap yaml back) v = some v ↔
      ∀ i ∈ Shape.values v, pass yaml cast back i = some i := by
  have entry (it : String × T) :
      passEntry yaml cast back it = some it ↔ pass yaml cast back it.2 = some it.2 := by
    obtain ⟨key, val⟩ := it
    simp [passEntry]
  have values : (∀ i ∈ Shape.values v, pass yaml cast back i = some i) ↔
      v.entries.mapM (passEntry yaml cast back) = some v.entries := by
    rw [mapM_eq_self_iff]
    simp only [entry]
    exact List.forall_mem_map
  have read : pass yaml (mapToString yaml cast) (stringToMap yaml back) v =
      (mapToString yaml cast v).bind (stringToMap yaml back) := pass_emit _ v reloads
  rw [values, read, read_map v reloads]
  constructor
  · intro same
    obtain ⟨entries, passed, made⟩ := Option.map_eq_some_iff.mp same
    have keys : entries.map Prod.fst = v.entries.map Prod.fst := by
      apply map_of_mapM _ passed
      intro it other turned
      obtain ⟨val, -, rfl⟩ := Option.map_eq_some_iff.mp turned
      rfl
    have sorted : OrderedSet.Sorted Prod.fst entries := by
      have old := List.pairwise_map.mpr v.sorted
      rw [← keys] at old
      exact List.pairwise_map.mp old
    rw [foldl_entries sorted] at made
    rw [passed, ← made]
  · intro passed
    rw [passed]
    exact congrArg some (foldl_entries v.sorted)

end Passes

/-- A value comes back from inside a container when what is innermost does. -/
theorem pass_iff [LinearOrder L] (cast : Cast L) (shape : Shape) (v : shape.Value L)
    (valid : shape.Valid v) (reloads : Reloads yaml cast shape v) :
    ((∀ i ∈ shape.leaves v, pass yaml cast.toString cast.fromString i = some i) →
      pass yaml (toString yaml cast shape) (fromString yaml cast shape) v = some v) ∧
    (shape.setless = true →
      pass yaml (toString yaml cast shape) (fromString yaml cast shape) v = some v →
      ∀ i ∈ shape.leaves v, pass yaml cast.toString cast.fromString i = some i) := by
  induction shape with
  | leaf =>
      constructor
      · exact fun leaves => leaves v (List.mem_singleton_self v)
      · intro _ passes i member
        cases List.mem_singleton.mp member
        exact passes
  | vector item ih =>
      obtain ⟨node, items⟩ := reloads
      constructor
      · intro leaves
        apply (passes_vector v node).mpr
        intro i member
        apply (ih i (valid i member) (items i member)).1
        exact fun j inside => leaves j (List.mem_flatMap.mpr ⟨i, member, inside⟩)
      · intro setless passes j member
        obtain ⟨i, inside, leaf⟩ := List.mem_flatMap.mp member
        have passed := (passes_vector v node).mp passes i inside
        exact (ih i (valid i inside) (items i inside)).2 setless passed j leaf
  | set item ih =>
      obtain ⟨node, items⟩ := reloads
      obtain ⟨sorted, every⟩ := valid
      constructor
      · intro leaves
        apply passes_set v sorted node
        intro i member
        apply (ih i (every i member) (items i member)).1
        exact fun j inside => leaves j (List.mem_flatMap.mpr ⟨i, member, inside⟩)
      · intro setless
        cases setless
  | map item ih =>
      obtain ⟨node, items⟩ := reloads
      constructor
      · intro leaves
        apply (passes_map v node).mpr
        intro i member
        apply (ih i (valid i member) (items i member)).1
        exact fun j inside => leaves j (List.mem_flatMap.mpr ⟨i, member, inside⟩)
      · intro setless passes j member
        obtain ⟨i, inside, leaf⟩ := List.mem_flatMap.mp member
        have passed := (passes_map v node).mp passes i inside
        exact (ih i (valid i inside) (items i inside)).2 setless passed j leaf

/-- Containers of containers come back from their text when everything innermost comes
back from inside a container, and without a set in between only then. -/
theorem containers_roundtrip [LinearOrder L] (cast : Cast L) (shape : Shape)
    (v : shape.Value L) (container : shape ≠ .leaf) (valid : shape.Valid v)
    (reloads : Reloads yaml cast shape v) :
    ((∀ i ∈ shape.leaves v, pass yaml cast.toString cast.fromString i = some i) →
      (toString yaml cast shape v).bind (fromString yaml cast shape) = some v) ∧
    (shape.setless = true →
      (toString yaml cast shape v).bind (fromString yaml cast shape) = some v →
      ∀ i ∈ shape.leaves v, pass yaml cast.toString cast.fromString i = some i) := by
  have passes := pass_iff cast shape v valid reloads
  have same : pass yaml (toString yaml cast shape) (fromString yaml cast shape) v =
      (toString yaml cast shape v).bind (fromString yaml cast shape) := by
    cases shape with
    | leaf => exact absurd rfl container
    | vector item => exact pass_emit _ v reloads.1
    | set item => exact pass_emit _ v reloads.1
    | map item => exact pass_emit _ v reloads.1
  rw [same] at passes
  exact passes

section Witness

/-- Whole numbers, which are written as they are. -/
def digits : Cast String where
  toString v := some v
  fromString v := if v.isEmpty then none else some v

def portsOf : StringMap (List String) :=
  StringMap.empty.insert "http" ["80", "8080"] |>.insert "none" []

def portsNode : Node :=
  .map [(.scalar "http", .sequence [.scalar "80", .scalar "8080"]),
    (.scalar "none", .sequence [])]

/-- yaml-cpp on `portsOf` and what is inside. -/
def portsYaml : Yaml where
  load v :=
    if v = "- 80\n- 8080" then some (.sequence [.scalar "80", .scalar "8080"])
    else if v = "[]" then some (.sequence [])
    else if v = "http:\n  - 80\n  - 8080\nnone:\n  []" then some portsNode
    else some (.scalar v)
  emit
    | .scalar text => text
    | .sequence [] => "[]"
    | .sequence _ => "- 80\n- 8080"
    | _ => "http:\n  - 80\n  - 8080\nnone:\n  []"
  encodeInt n := n.toInt.repr
  decodeInt _ := none

theorem portsOf_reloads : Reloads portsYaml digits (.map (.vector .leaf)) portsOf := by
  have node : mapToNode portsYaml (toString portsYaml digits (.vector .leaf)) portsOf =
      some portsNode := rfl
  have http : itemsToNode portsYaml (toString portsYaml digits .leaf) ["80", "8080"] =
      some (.sequence [.scalar "80", .scalar "8080"]) := rfl
  have none : itemsToNode portsYaml (toString portsYaml digits .leaf) [] =
      some (.sequence []) := rfl
  constructor
  · intro made built
    cases node.symm.trans built
    rfl
  · intro ports member
    rcases List.mem_cons.mp member with rfl | last
    · refine ⟨fun made built => ?_, fun _ _ => trivial⟩
      cases http.symm.trans built
      rfl
    · cases List.mem_singleton.mp last
      refine ⟨fun made built => ?_, fun _ _ => trivial⟩
      cases none.symm.trans built
      rfl

theorem containers_roundtrip_ports :
    (toString portsYaml digits (.map (.vector .leaf)) portsOf).bind
      (fromString portsYaml digits (.map (.vector .leaf))) = some portsOf := by
  apply (containers_roundtrip digits (.map (.vector .leaf)) portsOf nofun
    (fun _ _ _ _ => trivial) portsOf_reloads).1
  decide

end Witness

end Sylar.LexicalCast
