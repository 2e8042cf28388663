import Sylar.Config.Yaml

namespace Sylar

open Data YAML

/-! `LexicalCast` between strings and maps, and between strings and the
configuration of a TCP server. `none` is an exception. -/

/-- `std::map<std::string, T>`. -/
structure StringMap (T : Type) where
  entries : List (String × T)
  sorted : OrderedSet.Sorted Prod.fst entries
  deriving DecidableEq

namespace StringMap

def empty : StringMap T :=
  ⟨[], OrderedSet.sorted_nil _⟩

/-- A key that is there keeps its value. -/
def insert (m : StringMap T) (key : String) (val : T) : StringMap T :=
  ⟨OrderedSet.insert Prod.fst (key, val) m.entries,
    OrderedSet.sorted_insert (key, val) m.sorted⟩

theorem eq_empty {m : StringMap T} (none : m.entries = []) : m = empty := by
  cases m
  cases none
  rfl

end StringMap

namespace LexicalCast

variable (yaml : Yaml)

def stringToMap (cast : String → Option T) (v : String) :
    Option (StringMap T) := do
  let node ← yaml.load v
  let entries ← node.entries
  entries.foldlM (fun vec it => do
    let val ← cast (yaml.emit it.2)
    return vec.insert it.1.text val) StringMap.empty

def mapToNode (cast : T → Option String) (v : StringMap T) : Option Node := do
  let entries ← v.entries.mapM fun (key, val) => do
    let text ← cast val
    let node ← yaml.load text
    return (Node.scalar key, node)
  return .map entries

def mapToString (cast : T → Option String) (v : StringMap T) : Option String :=
  (mapToNode yaml cast v).map yaml.emit

end LexicalCast

structure TcpServerConf where
  address : List String := []
  keepalive : Int32 := 0
  timeout : Int32 := 1000 * 20 * 60
  ssl : Int32 := 0
  id : String := ""
  type : String := "http"
  name : String := ""
  cert_file : String := ""
  key_file : String := ""
  accept_worker : String := ""
  io_worker : String := ""
  process_worker : String := ""
  args : StringMap String := .empty
  deriving DecidableEq

namespace LexicalCast

variable (yaml : Yaml)

def stringToTcpServerConf (v : String) : Option TcpServerConf := do
  let node ← (← yaml.load v).subscript
  let conf : TcpServerConf := {}
  let id := (Node.asString (node "id")).getD conf.id
  let type := (Node.asString (node "type")).getD conf.type
  let keepalive := (yaml.asInt (node "keepalive")).getD conf.keepalive
  let timeout := (yaml.asInt (node "timeout")).getD conf.timeout
  let name := (Node.asString (node "name")).getD conf.name
  let ssl := (yaml.asInt (node "ssl")).getD conf.ssl
  let cert_file := (Node.asString (node "cert_file")).getD conf.cert_file
  let key_file := (Node.asString (node "key_file")).getD conf.key_file
  let accept_worker ← Node.asString (node "accept_worker")
  let io_worker ← Node.asString (node "io_worker")
  let process_worker ← Node.asString (node "process_worker")
  let args ← stringToMap yaml some ((Node.asString (node "args")).getD "")
  let address ←
    match node "address" with
    | some address => address.elements.mapM Node.asString
    | none => some conf.address
  return ⟨address, keepalive, timeout, ssl, id, type, name, cert_file, key_file,
    accept_worker, io_worker, process_worker, args⟩

/-- The node of a configuration, with the one of its `args`. -/
def tcpServerConfNode (conf : TcpServerConf) (args : Node) : Node :=
  .ofFields ([
    ("id", .scalar conf.id),
    ("type", .scalar conf.type),
    ("name", .scalar conf.name),
    ("keepalive", .scalar (yaml.encodeInt conf.keepalive)),
    ("timeout", .scalar (yaml.encodeInt conf.timeout)),
    ("ssl", .scalar (yaml.encodeInt conf.ssl)),
    ("cert_file", .scalar conf.cert_file),
    ("key_file", .scalar conf.key_file),
    ("accept_worker", .scalar conf.accept_worker),
    ("io_worker", .scalar conf.io_worker),
    ("process_worker", .scalar conf.process_worker),
    ("args", args)] ++
    ((Node.ofItems (conf.address.map .scalar)).map ("address", ·)).toList)

def tcpServerConfToNode (conf : TcpServerConf) : Option Node := do
  let args ← yaml.load (← mapToString yaml some conf.args)
  return tcpServerConfNode yaml conf args

def tcpServerConfToString (conf : TcpServerConf) : Option String :=
  (tcpServerConfToNode yaml conf).map yaml.emit

variable {yaml : Yaml} {conf : TcpServerConf} {v : String}

theorem stringToMap_empty (empty : yaml.load "" = some .null)
    (cast : String → Option T) : stringToMap yaml cast "" = some .empty := by
  rw [stringToMap, empty]
  rfl

theorem mapM_asString (texts : List String) :
    (Node.sequence (texts.map .scalar)).elements.mapM Node.asString =
      some texts := by
  rw [Node.elements_sequence, List.mapM_map, List.mapM_map]
  exact (List.mapM_pure).trans (congrArg some (List.map_id texts))

/-- Every field but `args` comes back, whatever the node of `args` is that is
not a scalar. -/
theorem read_tcpServerConfNode {args : Node}
    (int : ∀ n ∈ [conf.keepalive, conf.timeout, conf.ssl],
      yaml.decodeInt (yaml.encodeInt n) = some n)
    (empty : yaml.load "" = some .null) (kind : Node.asString (some args) = none)
    (loaded : yaml.load v = some (tcpServerConfNode yaml conf args)) :
    stringToTcpServerConf yaml v = some { conf with args := .empty } := by
  have integer : ∀ n ∈ [conf.keepalive, conf.timeout, conf.ssl],
      yaml.asInt (some (.scalar (yaml.encodeInt n))) = some n := int
  obtain ⟨address, _, _, _, _, _, _, _, _, _, _, _, _⟩ := conf
  rw [stringToTcpServerConf, loaded]
  simp only [Option.bind_eq_bind, Option.bind_some, tcpServerConfNode,
    Node.subscript_ofFields]
  cases address with
  | nil =>
      simp [List.lookup_cons, Node.ofItems, integer, kind, stringToMap_empty empty]
  | cons first rest =>
      have address := mapM_asString (first :: rest)
      rw [List.map_cons] at address
      simp [List.lookup_cons, Node.ofItems, integer, kind, stringToMap_empty empty,
        address]

/-- What is assumed of yaml-cpp for one configuration: numbers and the nodes that
are built from it come back. -/
structure Lossless (yaml : Yaml) (conf : TcpServerConf) : Prop where
  int : ∀ n ∈ [conf.keepalive, conf.timeout, conf.ssl],
    yaml.decodeInt (yaml.encodeInt n) = some n
  empty : yaml.load "" = some .null
  args : ∀ node, mapToNode yaml some conf.args = some node →
    yaml.load (yaml.emit node) = some node
  conf : ∀ node, tcpServerConfToNode yaml conf = some node →
    yaml.load (yaml.emit node) = some node

/-- The node of `args` is a map and not the text of one. -/
theorem tcpServerConfToNode_args (lossless : Lossless yaml conf) {node : Node}
    (built : tcpServerConfToNode yaml conf = some node) :
    ∃ entries, node = tcpServerConfNode yaml conf (.map entries) := by
  obtain ⟨text, written, built⟩ := Option.bind_eq_some_iff.mp built
  obtain ⟨args, loaded, built⟩ := Option.bind_eq_some_iff.mp built
  obtain ⟨map, built', rfl⟩ := Option.map_eq_some_iff.mp written
  obtain ⟨entries, -, same⟩ := Option.bind_eq_some_iff.mp built'
  cases same
  rw [lossless.args _ built'] at loaded
  cases loaded
  exact ⟨entries, (Option.some.inj built).symm⟩

/-- What is written is read without `args`. -/
theorem read_written (lossless : Lossless yaml conf)
    (written : tcpServerConfToString yaml conf = some v) :
    stringToTcpServerConf yaml v = some { conf with args := .empty } := by
  obtain ⟨node, built, rfl⟩ := Option.map_eq_some_iff.mp written
  have loaded := lossless.conf node built
  obtain ⟨entries, rfl⟩ := tcpServerConfToNode_args lossless built
  exact read_tcpServerConfNode lossless.int lossless.empty rfl loaded

theorem written_of_empty (lossless : Lossless yaml conf)
    (none : conf.args.entries = []) :
    tcpServerConfToString yaml conf =
      some (yaml.emit (tcpServerConfNode yaml conf (.map []))) := by
  have args : mapToNode yaml some conf.args = some (.map []) := by
    rw [mapToNode, none]
    rfl
  simp [tcpServerConfToString, tcpServerConfToNode, mapToString, args,
    lossless.args _ args]

theorem tcpServerConf_roundtrip_iff (lossless : Lossless yaml conf) :
    (tcpServerConfToString yaml conf).bind (stringToTcpServerConf yaml) =
        some conf ↔
      conf.args.entries = [] := by
  constructor
  · intro roundtrip
    obtain ⟨v, written, read⟩ := Option.bind_eq_some_iff.mp roundtrip
    rw [read_written lossless written] at read
    rw [← Option.some.inj read]
    rfl
  · intro none
    have written := written_of_empty lossless none
    rw [written, Option.bind_some, read_written lossless written,
      ← StringMap.eq_empty none]

/-! Two configurations with the text that yaml-cpp has for them. -/

def web (args : StringMap String) : TcpServerConf :=
  { address := ["0.0.0.0:8020"], id := "1", name := "web", io_worker := "io"
    accept_worker := "accept", process_worker := "http", args := args }

theorem plain_int : ∀ n ∈ [(0 : Int32), 1000 * 20 * 60, 0],
    Yaml.plain.decodeInt (Yaml.plain.encodeInt n) = some n :=
  List.forall_mem_cons.mpr ⟨by decide, List.forall_mem_cons.mpr ⟨by decide,
    List.forall_mem_cons.mpr ⟨by decide, by simp⟩⟩⟩

def webText : String :=
  "id: 1\ntype: http\nname: web\nkeepalive: 0\ntimeout: 1200000\nssl: 0
cert_file: \"\"\nkey_file: \"\"\naccept_worker: accept\nio_worker: io
process_worker: http\nargs:\n  {}\naddress:\n  - 0.0.0.0:8020"

def linesText : String :=
  "id: 1\ntype: http\nname: web\nkeepalive: 0\ntimeout: 1200000\nssl: 0
cert_file: \"\"\nkey_file: \"\"\naccept_worker: accept\nio_worker: io
process_worker: http\nargs:\n  lines: 5\naddress:\n  - 0.0.0.0:8020"

/-- With the texts of the node of `args` and of the whole. -/
def webYaml (args : Node) (text whole : String) : Yaml :=
  { Yaml.plain with
    load := fun v =>
      if v = "" then some .null
      else if v = text then some args
      else if v = whole then some (tcpServerConfNode Yaml.plain (web .empty) args)
      else some (.scalar v)
    emit
      | .map (_ :: _ :: _) => whole
      | _ => text }

theorem tcpServerConf_roundtrip_web :
    (tcpServerConfToString (webYaml (.map []) "{}" webText) (web .empty)).bind
        (stringToTcpServerConf (webYaml (.map []) "{}" webText)) =
      some (web .empty) := by
  refine (tcpServerConf_roundtrip_iff ⟨?_, rfl, ?_, ?_⟩).mpr rfl
  · exact plain_int
  · rintro node ⟨⟩
    rfl
  · have built : tcpServerConfToNode (webYaml (.map []) "{}" webText)
        (web .empty) = some (tcpServerConfNode Yaml.plain (web .empty) (.map [])) := rfl
    rw [built]
    rintro node ⟨⟩
    change (webYaml (.map []) "{}" webText).load webText = _
    simp [webYaml, webText]

def lines : StringMap String :=
  StringMap.empty.insert "lines" "5"

def linesNode : Node :=
  .map [(.scalar "lines", .scalar "5")]

def linesYaml : Yaml :=
  webYaml linesNode "lines: 5" linesText

theorem mapToNode_lines : mapToNode linesYaml some lines = some linesNode := by
  have loaded : linesYaml.load "5" = some (.scalar "5") := by
    simp [linesYaml, webYaml, linesText]
  simp [mapToNode, lines, StringMap.insert, StringMap.empty, OrderedSet.insert,
    loaded, linesNode]

theorem tcpServerConfToNode_lines : tcpServerConfToNode linesYaml (web lines) =
    some (tcpServerConfNode Yaml.plain (web .empty) linesNode) := by
  have loaded : linesYaml.load "lines: 5" = some linesNode := by
    simp [linesYaml, webYaml]
  have args : mapToString linesYaml some (web lines).args = some "lines: 5" :=
    congrArg (Option.map linesYaml.emit) mapToNode_lines
  rw [tcpServerConfToNode, args]
  simp only [Option.bind_eq_bind, Option.bind_some, loaded]
  rfl

/-- The value of `args` is written as a map and read as a scalar. -/
theorem tcpServerConf_args_lost :
    Lossless linesYaml (web lines) ∧
      (tcpServerConfToString linesYaml (web lines)).bind
        (stringToTcpServerConf linesYaml) = some (web .empty) ∧
      web .empty ≠ web lines := by
  have lossless : Lossless linesYaml (web lines) := by
    refine ⟨plain_int, rfl, ?_, ?_⟩
    · rw [show (web lines).args = lines from rfl, mapToNode_lines]
      rintro node ⟨⟩
      simp [linesYaml, webYaml, linesNode]
    · rw [tcpServerConfToNode_lines]
      rintro node ⟨⟩
      change linesYaml.load linesText = _
      simp [linesYaml, webYaml, linesText]
  refine ⟨lossless, ?_, by decide⟩
  have written : tcpServerConfToString linesYaml (web lines) = some linesText :=
    congrArg (Option.map linesYaml.emit) tcpServerConfToNode_lines
  rw [written, Option.bind_some]
  exact read_written lossless written

end LexicalCast

end Sylar
