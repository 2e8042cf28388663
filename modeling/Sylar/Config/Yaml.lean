import Mathlib.Data.String.Basic
import Sylar.Data.OrderedSet

namespace Sylar.YAML

open Data

/-! The nodes of yaml-cpp, as far as the casts of the configuration use them. An
undefined node is the `none` of an `Option Node`; an exception is the `none` of
an `Option`. -/

inductive Node
  | null
  | scalar (text : String)
  | sequence (items : List Node)
  | map (entries : List (Node × Node))
  deriving Repr

/-- `Load`, the emitter and `convert<int>`. -/
structure Yaml where
  load : String → Option Node
  emit : Node → String
  encodeInt : Int32 → String
  decodeInt : String → Option Int32

namespace Node

/-- A node after `node[key] = value` for one new key after the other. -/
def ofFields : List (String × Node) → Node
  | [] => null
  | fields => map (fields.map fun (key, value) => (scalar key, value))

/-- A node after `push_back` of one item after the other, undefined before. -/
def ofItems : List Node → Option Node
  | [] => none
  | items => some (sequence items)

/-- `Scalar`, empty for other nodes. -/
def text : Node → String
  | scalar text => text
  | _ => ""

def named (key : String) : Node → Bool
  | scalar text => text == key
  | _ => false

/-- `node[key]`: a scalar throws. -/
def subscript : Node → Option (String → Option Node)
  | scalar _ => none
  | map entries => some fun key =>
      (entries.find? fun entry => entry.1.named key).map Prod.snd
  | _ => some fun _ => none

def size : Node → Nat
  | sequence items => items.length
  | map entries => entries.length
  | _ => 0

/-- `node[i]` for `i < size()`. -/
def index (node : Node) (i : Nat) : Option Node :=
  match node with
  | sequence items => items[i]?
  | map entries =>
      (entries.find? fun entry => entry.1.named i.repr).map Prod.snd
  | _ => none

/-- `node[0]` to `node[size() - 1]`. -/
def elements (node : Node) : List (Option Node) :=
  (List.range node.size).map node.index

/-- What `begin()` to `end()` visits: an item of a sequence has no `first`. -/
def entries : Node → Option (List (Node × Node))
  | map entries => some entries
  | sequence (_ :: _) => none
  | _ => some []

/-- `as<std::string>()`, which throws for another kind; with a fallback it is
`getD`. -/
def asString : Option Node → Option String
  | some (scalar text) => some text
  | _ => none

@[simp] theorem asString_scalar (text : String) :
    asString (some (scalar text)) = some text :=
  rfl

theorem subscript_ofFields (fields : List (String × Node)) :
    (ofFields fields).subscript = some fun key => fields.lookup key := by
  have found : ∀ (fields : List (String × Node)) key,
      (((fields.map fun (key, value) => (scalar key, value)).find?
        fun entry => entry.1.named key).map Prod.snd) = fields.lookup key := by
    intro fields key
    induction fields with
    | nil => rfl
    | cons field rest ih =>
        rw [List.map_cons, List.find?_cons, List.lookup_cons, named, Bool.beq_comm]
        cases key == field.1 with
        | true => rfl
        | false => exact ih
  cases fields with
  | nil => rfl
  | cons field rest => exact congrArg some (funext (found (field :: rest)))

theorem elements_sequence (items : List Node) :
    (sequence items).elements = items.map some := by
  refine List.ext_getElem? fun i => ?_
  rcases Nat.lt_or_ge i items.length with inside | outside
  · simp [elements, size, index, inside]
  · simp [elements, size, outside]

end Node

/-- `as<int>()`. -/
def Yaml.asInt (yaml : Yaml) (node : Option Node) : Option Int32 :=
  (Node.asString node).bind yaml.decodeInt

/-- yaml-cpp on plain scalars and natural numbers. -/
def Yaml.plain : Yaml where
  load v := some (.scalar v)
  emit := Node.text
  encodeInt n := n.toInt.repr
  decodeInt text :=
    if text.toList.all Char.isDigit then
      some (.ofNat (Nat.ofDigitChars 10 text.toList 0))
    else none

end Sylar.YAML
