import Sylar.Config.Yaml

namespace Sylar

open YAML

/-! The definitions of loggers and of their appenders, with their `LexicalCast`
to a string and back. `none` is an exception. -/

inductive LogLevel
  | UNKNOW
  | DEBUG
  | INFO
  | WARN
  | ERROR
  | FATAL
  deriving DecidableEq, Repr

namespace LogLevel

def toString : LogLevel → String
  | UNKNOW => "UNKNOW"
  | DEBUG => "DEBUG"
  | INFO => "INFO"
  | WARN => "WARN"
  | ERROR => "ERROR"
  | FATAL => "FATAL"

def fromString (str : String) : LogLevel :=
  if str = "debug" then DEBUG
  else if str = "info" then INFO
  else if str = "warn" then WARN
  else if str = "error" then ERROR
  else if str = "fatal" then FATAL
  else if str = "DEBUG" then DEBUG
  else if str = "INFO" then INFO
  else if str = "WARN" then WARN
  else if str = "ERROR" then ERROR
  else if str = "FATAL" then FATAL
  else UNKNOW

@[simp] theorem fromString_toString (level : LogLevel) :
    fromString level.toString = level := by
  cases level <;> rfl

end LogLevel

structure LogAppenderDefine where
  /-- 1 File, 2 Stdout -/
  type : Int32 := 0
  level : LogLevel := .UNKNOW
  formatter : String := ""
  file : String := ""
  deriving DecidableEq

structure LogDefine where
  name : String := ""
  level : LogLevel := .UNKNOW
  formatter : String := ""
  appenders : List LogAppenderDefine := []
  deriving DecidableEq

namespace LexicalCast

/-- `as<std::string>()` behind `IsDefined()`. -/
def asStringIfDefined (node : Option Node) (otherwise : String) : Option String :=
  match node with
  | some node => Node.asString (some node)
  | none => some otherwise

/-- An element of `appenders`, or `continue`. -/
def nodeToAppender (element : Option Node) : Option (Option LogAppenderDefine) := do
  let a ← (element.getD .null).subscript
  match a "type" with
  | none => return none
  | some type =>
      let type ← Node.asString (some type)
      if type = "FileLogAppender" then
        match a "file" with
        | none => return none
        | some file =>
            let file ← Node.asString (some file)
            let formatter ← asStringIfDefined (a "formatter") ""
            return some { type := 1, file := file, formatter := formatter }
      else if type = "StdoutLogAppender" then
        let formatter ← asStringIfDefined (a "formatter") ""
        return some { type := 2, formatter := formatter }
      else return none

def stringToLogDefine (yaml : Yaml) (v : String) : Option LogDefine := do
  let n ← (← yaml.load v).subscript
  let name ← Node.asString (n "name")
  let level ← asStringIfDefined (n "level") ""
  let formatter ← asStringIfDefined (n "formatter") ""
  let appenders ←
    match n "appenders" with
    | some appenders => appenders.elements.mapM nodeToAppender
    | none => some []
  return ⟨name, .fromString level, formatter, appenders.filterMap id⟩

def levelField (level : LogLevel) : List (String × Node) :=
  if level ≠ .UNKNOW then [("level", .scalar level.toString)] else []

def formatterField (formatter : String) : List (String × Node) :=
  if formatter ≠ "" then [("formatter", .scalar formatter)] else []

def typeFields (a : LogAppenderDefine) : List (String × Node) :=
  if a.type = 1 then
    [("type", .scalar "FileLogAppender"), ("file", .scalar a.file)]
  else if a.type = 2 then [("type", .scalar "StdoutLogAppender")]
  else []

def appenderToNode (a : LogAppenderDefine) : Node :=
  .ofFields (typeFields a ++ levelField a.level ++ formatterField a.formatter)

def logDefineToNode (i : LogDefine) : Node :=
  .ofFields ([("name", .scalar i.name)] ++ levelField i.level ++
    formatterField i.formatter ++
    ((Node.ofItems (i.appenders.map appenderToNode)).map
      ("appenders", ·)).toList)

def logDefineToString (yaml : Yaml) (i : LogDefine) : String :=
  yaml.emit (logDefineToNode i)

/-- What is left of an appender. -/
def kept (a : LogAppenderDefine) : Option LogAppenderDefine :=
  if a.type = 1 then some { a with level := .UNKNOW }
  else if a.type = 2 then some { a with level := .UNKNOW, file := "" }
  else none

theorem lookup_levelField (level : LogLevel) {key : String}
    (other : key ≠ "level") : (levelField level).lookup key = none := by
  unfold levelField
  split
  · simp [List.lookup_cons, beq_eq_false_iff_ne.mpr other]
  · rfl

theorem lookup_formatterField (formatter : String) {key : String}
    (other : key ≠ "formatter") : (formatterField formatter).lookup key = none := by
  unfold formatterField
  split
  · simp [List.lookup_cons, beq_eq_false_iff_ne.mpr other]
  · rfl

theorem asString_levelField (level : LogLevel) :
    (asStringIfDefined ((levelField level).lookup "level") "").map
      LogLevel.fromString = some level := by
  unfold levelField
  split
  · simp [asStringIfDefined]
  · rename_i unknown
    rw [not_not.mp unknown]
    rfl

theorem asString_formatterField (formatter : String) :
    asStringIfDefined ((formatterField formatter).lookup "formatter") "" =
      some formatter := by
  unfold formatterField
  split
  · simp [asStringIfDefined]
  · rename_i empty
    rw [not_not.mp empty]
    rfl

theorem nodeToAppender_appenderToNode (a : LogAppenderDefine) :
    nodeToAppender (some (appenderToNode a)) = some (kept a) := by
  obtain ⟨type, level, formatter, file⟩ := a
  simp only [nodeToAppender, appenderToNode, Option.getD_some,
    Node.subscript_ofFields, Option.bind_eq_bind, Option.bind_some,
    List.lookup_append]
  by_cases first : type = 1
  · subst first
    simp [typeFields, kept, lookup_levelField, List.lookup_cons,
      asString_formatterField]
  · by_cases second : type = 2
    · subst second
      simp [typeFields, kept, lookup_levelField, List.lookup_cons,
        asString_formatterField]
    · simp [typeFields, kept, first, second, lookup_levelField,
        lookup_formatterField]

theorem mapM_nodeToAppender (appenders : List LogAppenderDefine) :
    (Node.sequence (appenders.map appenderToNode)).elements.mapM nodeToAppender =
      some (appenders.map kept) := by
  rw [Node.elements_sequence, List.mapM_map, List.mapM_map]
  refine Eq.trans ?_ (List.mapM_pure (m := Option))
  exact congrArg (appenders.mapM ·) (funext nodeToAppender_appenderToNode)

/-- The text of a definition is read without the levels of its appenders, the
files of those on the standard output and the appenders of another type. -/
theorem stringToLogDefine_written {yaml : Yaml} {i : LogDefine}
    (loaded : yaml.load (yaml.emit (logDefineToNode i)) =
      some (logDefineToNode i)) :
    stringToLogDefine yaml (logDefineToString yaml i) =
      some { i with appenders := i.appenders.filterMap kept } := by
  obtain ⟨name, level, formatter, appenders⟩ := i
  obtain ⟨text, written, read⟩ := Option.map_eq_some_iff.mp (asString_levelField level)
  rw [stringToLogDefine, logDefineToString, loaded]
  simp only [Option.bind_eq_bind, Option.bind_some, logDefineToNode,
    Node.subscript_ofFields, List.lookup_append]
  cases appenders with
  | nil =>
      simp [Node.ofItems, List.lookup_cons, lookup_levelField,
        lookup_formatterField, asString_formatterField, written, read]
  | cons first rest =>
      have appenders := mapM_nodeToAppender (first :: rest)
      rw [List.map_cons] at appenders
      simp [Node.ofItems, List.lookup_cons, lookup_levelField,
        lookup_formatterField, asString_formatterField, written, read, appenders]
      rw [← List.map_cons, List.filterMap_map]
      rfl

theorem kept_eq_self_iff (a : LogAppenderDefine) :
    kept a = some a ↔
      a.level = .UNKNOW ∧ (a.type = 1 ∨ a.type = 2 ∧ a.file = "") := by
  obtain ⟨type, level, formatter, file⟩ := a
  by_cases first : type = 1
  · subst first
    simp [kept, eq_comm]
  · by_cases second : type = 2
    · subst second
      simp [kept, eq_comm]
    · simp [kept, first, second]

theorem filterMap_eq_self_iff {f : α → Option α} {items : List α} :
    items.filterMap f = items ↔ ∀ a ∈ items, f a = some a := by
  constructor
  · intro same
    induction items with
    | nil => simp
    | cons a rest ih =>
        cases image : f a with
        | none =>
            rw [List.filterMap_cons_none image] at same
            have shorter := List.length_filterMap_le f rest
            rw [same, List.length_cons] at shorter
            omega
        | some b =>
            rw [List.filterMap_cons_some image] at same
            obtain ⟨rfl, fixed⟩ := List.cons.inj same
            exact List.forall_mem_cons.mpr ⟨image, ih fixed⟩
  · intro fixed
    exact (List.filterMap_congr fixed).trans List.filterMap_some

/-- A definition comes back from its text exactly when its appenders are of the
two types, without a level, and without a file on the standard output. -/
theorem logDefine_roundtrip_iff {yaml : Yaml} {i : LogDefine}
    (loaded : yaml.load (yaml.emit (logDefineToNode i)) =
      some (logDefineToNode i)) :
    stringToLogDefine yaml (logDefineToString yaml i) = some i ↔
      ∀ a ∈ i.appenders, a.level = .UNKNOW ∧
        (a.type = 1 ∨ a.type = 2 ∧ a.file = "") := by
  have same : some { i with appenders := i.appenders.filterMap kept } = some i ↔
      i.appenders.filterMap kept = i.appenders := by
    cases i
    simp
  rw [stringToLogDefine_written loaded, same, filterMap_eq_self_iff]
  exact forall₂_congr fun a _ => kept_eq_self_iff a

/-- The text that yaml-cpp has for one node. -/
def yamlOf (node : Node) (text : String) : Yaml :=
  { Yaml.plain with
    load := fun v => if v = text then some node else some (.scalar v)
    emit := fun _ => text }

theorem load_yamlOf (node : Node) (text : String) :
    (yamlOf node text).load ((yamlOf node text).emit node) = some node :=
  if_pos rfl

def system (level : LogLevel) : LogDefine :=
  { name := "system", level := .INFO
    appenders := [{ type := 1, level := level, file := "system.txt" },
      { type := 2, formatter := "%m%n" }] }

def systemYaml : Yaml :=
  yamlOf (logDefineToNode (system .UNKNOW)) "name: system
level: INFO
appenders:
  - type: FileLogAppender
    file: system.txt
  - type: StdoutLogAppender
    formatter: \"%m%n\""

theorem logDefine_roundtrip_system :
    stringToLogDefine systemYaml (logDefineToString systemYaml (system .UNKNOW)) =
      some (system .UNKNOW) :=
  (logDefine_roundtrip_iff (load_yamlOf _ _)).mpr (by decide)

def errorYaml : Yaml :=
  yamlOf (logDefineToNode (system .ERROR)) "name: system
level: INFO
appenders:
  - type: FileLogAppender
    file: system.txt
    level: ERROR
  - type: StdoutLogAppender
    formatter: \"%m%n\""

/-- The level of an appender is written and not read. -/
theorem logDefine_level_lost :
    errorYaml.load (errorYaml.emit (logDefineToNode (system .ERROR))) =
        some (logDefineToNode (system .ERROR)) ∧
      stringToLogDefine errorYaml (logDefineToString errorYaml (system .ERROR)) =
        some (system .UNKNOW) ∧
      system .UNKNOW ≠ system .ERROR :=
  ⟨load_yamlOf _ _, stringToLogDefine_written (load_yamlOf _ _), by decide⟩

end LexicalCast

end Sylar
