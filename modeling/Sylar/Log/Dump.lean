import Sylar.Config.Containers
import Sylar.Log.Routing

namespace Sylar

open Data YAML Logic LexicalCast

/-! `toYamlString` of the appenders, the loggers and their manager, and the loading of
what it writes as a value of the `logs` configuration. -/

namespace LogAppender

def toNode (appender : LogAppender) : YAML.Node :=
  .ofFields ((match appender.output with
      | .file filename => [("type", .scalar "FileLogAppender"), ("file", .scalar filename)]
      | .stdout => [("type", .scalar "StdoutLogAppender")]) ++
    levelField appender.level ++
    match appender.hasFormatter, appender.formatter with
    | true, some pattern => [("formatter", .scalar pattern)]
    | _, _ => [])

end LogAppender

namespace Logger

/-- `m_formatter` is not null. -/
def toNode (yaml : Yaml) (name : String) (logger : Logger) : Option YAML.Node := do
  let appenders ← logger.appenders.mapM fun i => yaml.load (yaml.emit i.toNode)
  return .ofFields ([("name", .scalar name)] ++ levelField logger.level ++
    [("formatter", .scalar logger.formatter)] ++
    ((YAML.Node.ofItems appenders).map ("appenders", ·)).toList)

def toYamlString (yaml : Yaml) (name : String) (logger : Logger) : Option String :=
  (logger.toNode yaml name).map yaml.emit

end Logger

namespace LoggerManager

variable (yaml : Yaml)

/-- `m_loggers` are the names in the order of the map. -/
def toYamlString (m_loggers : List String) (loggers : String → Logger) :
    Option String := do
  let nodes ← m_loggers.mapM fun name => do
    let text ← (loggers name).toYamlString yaml name
    yaml.load text
  return yaml.emit ((YAML.Node.ofItems nodes).getD .null)

end LoggerManager

namespace LogDefines

def empty : LogDefines := ⟨[], OrderedSet.sorted_nil _⟩

def insert (vec : LogDefines) (i : LogDefine) : LogDefines :=
  ⟨OrderedSet.insert LogDefine.name i vec.list, OrderedSet.sorted_insert i vec.sorted⟩

end LogDefines

/-- `LexicalCast<std::string, std::set<LogDefine>>` -/
def LexicalCast.stringToLogDefines (yaml : Yaml) (v : String) : Option LogDefines := do
  let node ← yaml.load v
  node.elements.foldlM (fun vec i => do
    let val ← stringToLogDefine yaml (emitted yaml i)
    return vec.insert val) LogDefines.empty

namespace LogIniter

variable (env : Env)

/-- What a logger is after it was written and loaded: the levels of its appenders are
not read, and in the background there is no terminal. -/
def reload (logger : Logger) : Logger :=
  { logger with appenders :=
      (logger.appenders.filter fun i => !(i.output == .stdout && env.daemon)).map fun i =>
        { i with level := .UNKNOW } }

/-- The formatters are those that `setFormatter` and `addAppender` leave. -/
structure Sound (logger : Logger) : Prop where
  some_pattern : logger.formatter ≠ ""
  pattern : env.isError logger.formatter = false
  own : ∀ i ∈ logger.appenders, i.hasFormatter = true →
    ∃ pattern, i.formatter = some pattern ∧ pattern ≠ "" ∧ env.isError pattern = false
  shared : ∀ i ∈ logger.appenders, i.hasFormatter = false →
    i.formatter = some logger.formatter

/-- A definition with the contents of an appender. -/
def appenderDefine (appender : LogAppender) : LogAppenderDefine where
  type := match appender.output with
    | .file _ => 1
    | .stdout => 2
  level := appender.level
  formatter := if appender.hasFormatter then appender.formatter.getD "" else ""
  file := match appender.output with
    | .file filename => filename
    | .stdout => ""

def loggerDefine (name : String) (logger : Logger) : LogDefine where
  name := name
  level := logger.level
  formatter := logger.formatter
  appenders := logger.appenders.map appenderDefine

variable {env} {yaml : Yaml} {logger : Logger} {name : String}

theorem toNode_appender (sound : Sound env logger) {i : LogAppender}
    (member : i ∈ logger.appenders) : i.toNode = appenderToNode (appenderDefine i) := by
  obtain ⟨output, level, formatter, hasFormatter⟩ := i
  cases hasFormatter with
  | false =>
      cases output with
      | file filename => rfl
      | stdout => rfl
  | true =>
      obtain ⟨pattern, own, named, -⟩ := sound.own _ member rfl
      cases own
      have field : formatterField pattern = [("formatter", .scalar pattern)] :=
        if_pos named
      cases output with
      | file filename =>
          change YAML.Node.ofFields (_ ++ _ ++ [("formatter", .scalar pattern)]) = _
          rw [← field]
          rfl
      | stdout =>
          change YAML.Node.ofFields (_ ++ _ ++ [("formatter", .scalar pattern)]) = _
          rw [← field]
          rfl

/-- What is assumed of yaml-cpp: the nodes that are written come back. -/
structure ReloadsLoggers (yaml : Yaml) (m_loggers : List String) (loggers : String → Logger) :
    Prop where
  appender : ∀ name ∈ m_loggers, ∀ i ∈ (loggers name).appenders,
    yaml.load (yaml.emit i.toNode) = some i.toNode
  logger : ∀ name ∈ m_loggers, ∀ node, (loggers name).toNode yaml name = some node →
    yaml.load (yaml.emit node) = some node
  all : ∀ nodes, (m_loggers.mapM fun name => (loggers name).toNode yaml name) = some nodes →
    yaml.load (yaml.emit (.sequence nodes)) = some (.sequence nodes)

theorem toNode_logger (sound : Sound env logger)
    (loaded : ∀ i ∈ logger.appenders, yaml.load (yaml.emit i.toNode) = some i.toNode) :
    logger.toNode yaml name = some (logDefineToNode (loggerDefine name logger)) := by
  have appenders : (logger.appenders.mapM fun i => yaml.load (yaml.emit i.toNode)) =
      some (logger.appenders.map fun i => appenderToNode (appenderDefine i)) := by
    apply mapM_map
    intro i member
    rw [loaded i member, toNode_appender sound member]
  have field : formatterField logger.formatter = [("formatter", .scalar logger.formatter)] :=
    if_pos sound.some_pattern
  rw [Logger.toNode, appenders, ← field, logDefineToNode, loggerDefine, List.map_map]
  rfl

/-- The definition that is read for a logger. -/
def readDefine (loggers : String → Logger) (name : String) : LogDefine :=
  { loggerDefine name (loggers name) with
    appenders := (loggerDefine name (loggers name)).appenders.filterMap kept }

section Loaded

variable {m_loggers : List String} {loggers : String → Logger}

theorem list_foldl (defines : List LogDefine) (start : LogDefines) :
    (defines.foldl LogDefines.insert start).list =
      defines.foldl (fun vec i => OrderedSet.insert LogDefine.name i vec) start.list := by
  induction defines generalizing start with
  | nil => rfl
  | cons i rest ih => exact ih (start.insert i)

theorem toYamlString_eq (sound : ∀ name ∈ m_loggers, Sound env (loggers name))
    (reloads : ReloadsLoggers yaml m_loggers loggers) (some_logger : m_loggers ≠ []) :
    LoggerManager.toYamlString yaml m_loggers loggers =
      some (yaml.emit (.sequence (m_loggers.map fun name =>
        logDefineToNode (loggerDefine name (loggers name))))) := by
  have nodes : (m_loggers.mapM fun name =>
      ((loggers name).toYamlString yaml name).bind yaml.load) =
      some (m_loggers.map fun name =>
        logDefineToNode (loggerDefine name (loggers name))) := by
    apply mapM_map
    intro name member
    have node : (loggers name).toNode yaml name =
        some (logDefineToNode (loggerDefine name (loggers name))) :=
      toNode_logger (sound name member) (reloads.appender name member)
    rw [Logger.toYamlString, node]
    exact reloads.logger name member _ node
  have items : (YAML.Node.ofItems (m_loggers.map fun name =>
      logDefineToNode (loggerDefine name (loggers name)))).getD .null =
      .sequence (m_loggers.map fun name =>
        logDefineToNode (loggerDefine name (loggers name))) := by
    cases m_loggers with
    | nil => exact absurd rfl some_logger
    | cons first rest => rfl
  rw [← items]
  exact congrArg (Option.bind · _) nodes

theorem loaded (sound : ∀ name ∈ m_loggers, Sound env (loggers name))
    (reloads : ReloadsLoggers yaml m_loggers loggers)
    (sorted : m_loggers.Pairwise (· < ·)) :
    ∃ v, stringToLogDefines yaml (yaml.emit (.sequence (m_loggers.map fun name =>
        logDefineToNode (loggerDefine name (loggers name))))) = some v ∧
      v.list = m_loggers.map (readDefine loggers) := by
  have nodes (name : String) (member : name ∈ m_loggers) :
      (loggers name).toNode yaml name =
        some (logDefineToNode (loggerDefine name (loggers name))) :=
    toNode_logger (sound name member) (reloads.appender name member)
  have whole := reloads.all _ (mapM_map nodes)
  have read : (m_loggers.map fun name =>
      logDefineToNode (loggerDefine name (loggers name))).mapM (fun node =>
        stringToLogDefine yaml (yaml.emit node)) =
      some (m_loggers.map (readDefine loggers)) := by
    rw [List.mapM_map]
    apply mapM_map
    intro name member
    exact stringToLogDefine_written
      (reloads.logger name member _ (nodes name member))
  have ordered : OrderedSet.Sorted LogDefine.name (m_loggers.map (readDefine loggers)) :=
    List.pairwise_map.mpr sorted
  refine ⟨(m_loggers.map (readDefine loggers)).foldl LogDefines.insert .empty, ?_, ?_⟩
  · have fold := foldlM_eq_mapM (fun node => stringToLogDefine yaml (emitted yaml node))
      (fun i (vec : LogDefines) => vec.insert i)
      ((m_loggers.map fun name => logDefineToNode (loggerDefine name (loggers name))).map some)
      LogDefines.empty
    rw [List.mapM_map] at fold
    change _ = Option.map _ (List.mapM (fun node => stringToLogDefine yaml (yaml.emit node)) _)
      at fold
    rw [read] at fold
    rw [stringToLogDefines, whole]
    change (YAML.Node.sequence _).elements.foldlM _ LogDefines.empty = _
    rw [YAML.Node.elements_sequence]
    exact fold
  · rw [list_foldl]
    exact OrderedSet.foldl_insert ordered

end Loaded

section Configured

variable {loggers : String → Logger}

theorem kept_appenderDefine (i : LogAppender) :
    kept (appenderDefine i) = some { appenderDefine i with level := .UNKNOW } := by
  obtain ⟨output, level, formatter, hasFormatter⟩ := i
  cases output with
  | file filename => rfl
  | stdout => rfl

/-- An appender that is made again. -/
theorem setUp_again (sound : Sound env logger) {i : LogAppender}
    (member : i ∈ logger.appenders) (into : Logger)
    (same : into.formatter = logger.formatter) :
    into.addAppender (setUp env { output := i.output }
        { appenderDefine i with level := .UNKNOW }) =
      { into with appenders := into.appenders ++ [{ i with level := .UNKNOW }] } := by
  obtain ⟨output, level, formatter, hasFormatter⟩ := i
  cases hasFormatter with
  | false =>
      have shared := sound.shared _ member rfl
      cases shared
      have made : setUp env { output := output }
          { appenderDefine ⟨output, level, some logger.formatter, false⟩ with
            level := .UNKNOW } = { output := output, level := .UNKNOW } :=
        if_neg fun own => own.1 rfl
      rw [made, ← same]
      rfl
  | true =>
      obtain ⟨pattern, own, named, valid⟩ := sound.own _ member rfl
      cases own
      have made : setUp env { output := output }
          { appenderDefine ⟨output, level, some pattern, true⟩ with level := .UNKNOW } =
          { output := output, level := .UNKNOW, formatter := some pattern
            hasFormatter := true } :=
        if_pos ⟨named, valid⟩
      rw [made]
      rfl

theorem addAppenders_again (sound : Sound env logger) (appenders : List LogAppender)
    (members : ∀ i ∈ appenders, i ∈ logger.appenders) (into : Logger)
    (same : into.formatter = logger.formatter) :
    addAppenders env into ((appenders.map appenderDefine).filterMap kept) =
      some { into with appenders := into.appenders ++
        (reload env { logger with appenders := appenders }).appenders } := by
  induction appenders generalizing into with
  | nil => simp [reload, addAppenders]
  | cons i rest ih =>
      obtain ⟨here, later⟩ := List.forall_mem_cons.mp members
      rw [List.map_cons, List.filterMap_cons_some (kept_appenderDefine i)]
      have again := setUp_again sound here into same
      obtain ⟨output, level, formatter, hasFormatter⟩ := i
      cases output with
      | file filename =>
          refine (if_pos rfl).trans ?_
          change addAppenders env (into.addAppender (setUp env { output := .file filename }
            { appenderDefine ⟨.file filename, level, formatter, hasFormatter⟩ with
              level := .UNKNOW })) _ = _
          rw [again]
          refine Eq.trans (ih later _ ?_) ?_
          · exact same
          · simp [reload]
      | stdout =>
          refine (if_neg (show (2 : Int32) ≠ 1 by decide)).trans ((if_pos rfl).trans ?_)
          cases background : env.daemon with
          | false =>
              change addAppenders env (into.addAppender (setUp env { output := .stdout }
                { appenderDefine ⟨.stdout, level, formatter, hasFormatter⟩ with
                  level := .UNKNOW })) _ = _
              rw [again]
              refine Eq.trans (ih later _ ?_) ?_
              · exact same
              · simp [reload, background]
          | true =>
              change addAppenders env into _ = _
              refine (ih later into same).trans ?_
              simp [reload, background]

theorem configure_again (sound : Sound env logger) (before : Logger) :
    configure env before { loggerDefine name logger with
      appenders := (loggerDefine name logger).appenders.filterMap kept } =
      some (reload env logger) := by
  let levelled : Logger := { before with level := logger.level }
  have chosen : (if logger.formatter ≠ "" then
      levelled.setFormatter env.isError logger.formatter else levelled) =
      { levelled with
        formatter := logger.formatter
        appenders := levelled.appenders.map fun i =>
          if i.hasFormatter then i else { i with formatter := some logger.formatter } } := by
    rw [if_pos sound.some_pattern, Logger.setFormatter, if_neg]
    rw [sound.pattern]
    exact Bool.false_ne_true
  have configured : configure env before { loggerDefine name logger with
      appenders := (loggerDefine name logger).appenders.filterMap kept } =
      addAppenders env { (if logger.formatter ≠ "" then
        levelled.setFormatter env.isError logger.formatter else levelled) with
          appenders := [] } ((logger.appenders.map appenderDefine).filterMap kept) := rfl
  rw [configured, chosen]
  exact addAppenders_again sound logger.appenders (fun _ => id) _ rfl

/-- Every definition is applied where there was none before. -/
theorem applyNew_again (old_value : LogDefines) (none : old_value.list = [])
    (m_loggers : List String) (sorted : m_loggers.Pairwise (· < ·))
    (sound : ∀ name ∈ m_loggers, Sound env (loggers name)) (start : String → Logger) :
    ∃ after, applyNew env old_value start (m_loggers.map (readDefine loggers)) = some after ∧
      (∀ name ∈ m_loggers, after name = reload env (loggers name)) ∧
      ∀ name, name ∉ m_loggers → after name = start name := by
  induction m_loggers generalizing start with
  | nil => exact ⟨start, rfl, fun name member => absurd member List.not_mem_nil, fun _ _ => rfl⟩
  | cons name rest ih =>
      obtain ⟨first, sorted⟩ := List.pairwise_cons.mp sorted
      obtain ⟨here, later⟩ := List.forall_mem_cons.mp sound
      have fresh : unchanged old_value (readDefine loggers name) = false := by
        unfold unchanged
        rw [none]
        rfl
      obtain ⟨after, applied, those, others⟩ := ih sorted later
        (Function.update start name (reload env (loggers name)))
      have apart : name ∉ rest := fun member => lt_irrefl name (first name member)
      refine ⟨after, ?_, ?_, ?_⟩
      · rw [List.map_cons, applyNew, fresh]
        have configured : configure env (start name) (readDefine loggers name) = _ :=
          configure_again here (start name)
        refine (if_neg Bool.false_ne_true).trans ?_
        change (configure env (start name) (readDefine loggers name)).bind _ = _
        rw [configured]
        exact applied
      · have own : after name = reload env (loggers name) := by
          rw [others name apart, Function.update_self]
        exact List.forall_mem_cons.mpr ⟨own, those⟩
      · intro other outside
        obtain ⟨different, outside⟩ := not_or.mp (fun member =>
          outside (List.mem_cons.mpr member))
        rw [others other outside, Function.update_of_ne different]

end Configured

namespace Sound

theorem clear (sound : Sound env logger) (level : LogLevel) :
    Sound env { logger with level := level, appenders := [] } where
  some_pattern := sound.some_pattern
  pattern := sound.pattern
  own _ member := absurd member List.not_mem_nil
  shared _ member := absurd member List.not_mem_nil

theorem setFormatter (sound : Sound env logger) {val : String} (named : val ≠ "") :
    Sound env (logger.setFormatter env.isError val) := by
  unfold Logger.setFormatter
  split
  · exact sound
  · rename_i valid
    constructor
    · exact named
    · exact Bool.eq_false_iff.mpr valid
    · intro i member own
      obtain ⟨before, inside, rfl⟩ := List.mem_map.mp member
      split at own
      · rename_i had
        rw [if_pos had]
        exact sound.own before inside had
      · rename_i lacks
        exact absurd own lacks
    · intro i member lacks
      obtain ⟨before, inside, rfl⟩ := List.mem_map.mp member
      split at lacks
      · rename_i had
        rw [lacks] at had
        cases had
      · rename_i never
        rw [if_neg never]

theorem addAppender (sound : Sound env logger) (output : Output) (a : LogAppenderDefine) :
    Sound env (logger.addAppender (setUp env { output := output } a)) := by
  have added : (a.formatter ≠ "" ∧ env.isError a.formatter = false ∧
      logger.addAppender (setUp env { output := output } a) = { logger with
        appenders := logger.appenders ++
          [{ output := output, level := a.level, formatter := some a.formatter
             hasFormatter := true }] }) ∨
      logger.addAppender (setUp env { output := output } a) = { logger with
        appenders := logger.appenders ++
          [{ output := output, level := a.level, formatter := some logger.formatter }] } := by
    unfold setUp
    split
    · rename_i own
      exact .inl ⟨own.1, own.2, rfl⟩
    · exact .inr rfl
  rcases added with ⟨named, valid, added⟩ | added
  · rw [added]
    constructor
    · exact sound.some_pattern
    · exact sound.pattern
    · intro i member own
      rcases List.mem_append.mp member with before | last
      · exact sound.own i before own
      · cases List.mem_singleton.mp last
        exact ⟨a.formatter, rfl, named, valid⟩
    · intro i member lacks
      rcases List.mem_append.mp member with before | last
      · exact sound.shared i before lacks
      · cases List.mem_singleton.mp last
        cases lacks
  · rw [added]
    constructor
    · exact sound.some_pattern
    · exact sound.pattern
    · intro i member own
      rcases List.mem_append.mp member with before | last
      · exact sound.own i before own
      · cases List.mem_singleton.mp last
        cases own
    · intro i member lacks
      rcases List.mem_append.mp member with before | last
      · exact sound.shared i before lacks
      · cases List.mem_singleton.mp last
        rfl

theorem addAppenders {defines : List LogAppenderDefine} {after : Logger}
    (sound : Sound env logger) (added : addAppenders env logger defines = some after) :
    Sound env after := by
  induction defines generalizing logger with
  | nil =>
      cases added
      exact sound
  | cons a rest ih =>
      unfold LogIniter.addAppenders at added
      split at added
      · exact ih (sound.addAppender _ a) added
      · split at added
        · split at added
          · exact ih (sound.addAppender _ a) added
          · exact ih sound added
        · cases added

theorem configure {i : LogDefine} {after : Logger} (sound : Sound env logger)
    (configured : configure env logger i = some after) : Sound env after := by
  have levelled : Sound env { logger with level := i.level } :=
    ⟨sound.some_pattern, sound.pattern, sound.own, sound.shared⟩
  unfold LogIniter.configure at configured
  dsimp only at configured
  by_cases named : i.formatter ≠ ""
  · rw [if_pos named] at configured
    exact ((levelled.setFormatter named).clear _).addAppenders configured
  · rw [if_neg named] at configured
    exact (levelled.clear _).addAppenders configured

theorem applyNew {old_value : LogDefines} {defines : List LogDefine}
    {loggers after : String → Logger} (sound : ∀ name, Sound env (loggers name))
    (applied : applyNew env old_value loggers defines = some after) (name : String) :
    Sound env (after name) := by
  induction defines generalizing loggers with
  | nil =>
      cases applied
      exact sound name
  | cons i rest ih =>
      unfold LogIniter.applyNew at applied
      split at applied
      · exact ih sound applied
      · obtain ⟨logger, configured, later⟩ := Option.bind_eq_some_iff.mp applied
        apply ih _ later
        intro other
        rw [Function.update_apply]
        split
        · exact (sound i.name).configure configured
        · exact sound other

theorem removeOld {new_value : LogDefines} {defines : List LogDefine}
    {loggers : String → Logger} (sound : ∀ name, Sound env (loggers name)) (name : String) :
    Sound env (removeOld new_value loggers defines name) := by
  induction defines generalizing loggers with
  | nil => exact sound name
  | cons i rest ih =>
      cases found : OrderedSet.find LogDefine.name i new_value.list with
      | none =>
          rw [removeOld_none found]
          apply ih
          intro other
          rw [Function.update_apply]
          split
          · exact (sound i.name).clear _
          · exact sound other
      | some it =>
          rw [removeOld_some found]
          exact ih sound

theorem step {s after : State} {v : LogDefines} (sound : ∀ name, Sound env (s.loggers name))
    (set : setValue env s v = some after) (name : String) :
    Sound env (after.loggers name) := by
  unfold setValue at set
  split at set
  · cases set
    exact sound name
  · obtain ⟨loggers, heard, rfl⟩ := Option.map_eq_some_iff.mp set
    obtain ⟨middle, new, rfl⟩ := Option.map_eq_some_iff.mp heard
    exact removeOld (applyNew sound new) name

theorem new (standard : env.isError Logger.new.formatter = false) : Sound env .new where
  some_pattern := by decide
  pattern := standard
  own _ member := absurd member List.not_mem_nil
  shared _ member := absurd member List.not_mem_nil

theorem booted {s : State} (standard : env.isError Logger.new.formatter = false)
    (booted : Booted s) (name : String) : Sound env (s.loggers name) := by
  by_cases root : name = "root"
  · rw [root, booted.root]
    exact (new standard).addAppender .stdout { level := .DEBUG }
  · rw [booted.others name root]
    exact new standard

theorem run {s : State} (standard : env.isError Logger.new.formatter = false)
    (reached : Reach Booted (StepOf (setValue env)) s) (name : String) :
    Sound env (s.loggers name) := by
  induction reached generalizing name with
  | start s initial => exact booted standard initial name
  | step s v after reached taken ih => exact step ih taken name

end Sound

theorem reload_new : reload env .new = .new := rfl

/-- However the loggers were configured, what is written of them makes the same loggers
when it is loaded in a program that has just begun, but for the levels of the appenders,
and but for the terminal in the background. -/
theorem dump_reloads (standard : env.isError Logger.new.formatter = false) {s b : State}
    (reached : Reach Booted (StepOf (setValue env)) s) {m_loggers : List String}
    (sorted : m_loggers.Pairwise (· < ·)) (root : "root" ∈ m_loggers)
    (others : ∀ name, name ∉ m_loggers → s.loggers name = .new)
    (reloads : ReloadsLoggers yaml m_loggers s.loggers) (booted : Booted b) :
    ∃ text v after, LoggerManager.toYamlString yaml m_loggers s.loggers = some text ∧
      stringToLogDefines yaml text = some v ∧ setValue env b v = some after ∧
      ∀ name, after.loggers name = reload env (s.loggers name) := by
  have sound := Sound.run standard reached
  have dumped := toYamlString_eq (fun name _ => sound name) reloads
    (List.ne_nil_of_mem root)
  obtain ⟨v, read, list⟩ := loaded (fun name _ => sound name) reloads sorted
  obtain ⟨after, applied, those, rest⟩ := applyNew_again b.value booted.value m_loggers
    sorted (fun name _ => sound name) b.loggers
  have changed : same v b.value = false := by
    unfold same
    rw [list, booted.value, List.length_map, List.length_nil]
    have some_logger := List.length_pos_of_mem root
    rw [beq_eq_false_iff_ne.mpr (Nat.ne_of_gt some_logger)]
    rfl
  have heard : listener env b.value v b.loggers = some after := by
    unfold listener
    rw [list, applied, booted.value]
    rfl
  refine ⟨_, v, ⟨v, after⟩, dumped, read, ?_, ?_⟩
  · unfold setValue
    rw [changed, heard]
    rfl
  · intro name
    by_cases known : name ∈ m_loggers
    · exact those name known
    · have other : name ≠ "root" := fun same => known (same ▸ root)
      rw [others name known, reload_new]
      exact (rest name known).trans (booted.others name other)

section Witness

def rootLogger : Logger := Logger.new.addAppender { output := .stdout }

def systemLogger : Logger where
  level := .INFO
  formatter := Logger.new.formatter
  appenders := [{ output := .file "a.txt", level := .INFO
                  formatter := some Logger.new.formatter }]

def dumpNode (name : String) (logger : Logger) : YAML.Node :=
  logDefineToNode (loggerDefine name logger)

def rootText : String := "name: root
level: DEBUG
formatter: \"%d\x7b%Y-%m-%d %H:%M:%S\x7d%T%t%T%N%T%F%T[%p]%T[%c]%T%f:%l%T%m%n\"
appenders:
  - type: StdoutLogAppender
    level: DEBUG"

def systemText : String := "name: system
level: INFO
formatter: \"%d\x7b%Y-%m-%d %H:%M:%S\x7d%T%t%T%N%T%F%T[%p]%T[%c]%T%f:%l%T%m%n\"
appenders:
  - type: FileLogAppender
    file: a.txt
    level: INFO"

def stdoutText : String := "type: StdoutLogAppender
level: DEBUG"

def fileText : String := "type: FileLogAppender
file: a.txt
level: INFO"

def allText : String := "- name: root
  level: DEBUG
  formatter: \"%d\x7b%Y-%m-%d %H:%M:%S\x7d%T%t%T%N%T%F%T[%p]%T[%c]%T%f:%l%T%m%n\"
  appenders:
    - type: StdoutLogAppender
      level: DEBUG
- name: system
  level: INFO
  formatter: \"%d\x7b%Y-%m-%d %H:%M:%S\x7d%T%t%T%N%T%F%T[%p]%T[%c]%T%f:%l%T%m%n\"
  appenders:
    - type: FileLogAppender
      file: a.txt
      level: INFO"

/-- yaml-cpp on the nodes of the two loggers. -/
def dumpYaml : Yaml where
  load v :=
    if v = rootText then some (dumpNode "root" rootLogger)
    else if v = systemText then some (dumpNode "system" systemLogger)
    else if v = fileText then
      some (appenderToNode { type := 1, level := .INFO, file := "a.txt" })
    else if v = stdoutText then some (appenderToNode { type := 2, level := .DEBUG })
    else if v = allText then
      some (.sequence [dumpNode "root" rootLogger, dumpNode "system" systemLogger])
    else some (.scalar v)
  emit
    | .map ((_, .scalar "root") :: _) => rootText
    | .map ((_, .scalar "system") :: _) => systemText
    | .map ((_, .scalar "FileLogAppender") :: _) => fileText
    | .map ((_, .scalar "StdoutLogAppender") :: _) => stdoutText
    | _ => allText
  encodeInt n := n.toInt.repr
  decodeInt _ := none

theorem load_rootText : dumpYaml.load rootText = some (dumpNode "root" rootLogger) := by
  simp [dumpYaml]

theorem load_systemText :
    dumpYaml.load systemText = some (dumpNode "system" systemLogger) := by
  have first : systemText ≠ rootText := by simp [systemText, rootText]
  simp [dumpYaml, first]

theorem load_fileText : dumpYaml.load fileText =
    some (appenderToNode { type := 1, level := .INFO, file := "a.txt" }) := by
  have first : fileText ≠ rootText := by simp [fileText, rootText]
  have second : fileText ≠ systemText := by simp [fileText, systemText]
  simp [dumpYaml, first, second]

theorem load_stdoutText : dumpYaml.load stdoutText =
    some (appenderToNode { type := 2, level := .DEBUG }) := by
  have first : stdoutText ≠ rootText := by simp [stdoutText, rootText]
  have second : stdoutText ≠ systemText := by simp [stdoutText, systemText]
  have third : stdoutText ≠ fileText := by simp [stdoutText, fileText]
  simp [dumpYaml, first, second, third]

theorem load_allText : dumpYaml.load allText =
    some (.sequence [dumpNode "root" rootLogger, dumpNode "system" systemLogger]) := by
  have first : allText ≠ rootText := by simp [allText, rootText]
  have second : allText ≠ systemText := by simp [allText, systemText]
  have third : allText ≠ fileText := by simp [allText, fileText]
  have fourth : allText ≠ stdoutText := by simp [allText, stdoutText]
  simp [dumpYaml, first, second, third, fourth]

/-- The level of the appender is not read. -/
theorem dump_reloads_system :
    ∃ s text v after, setValue terminal booted (one (toFile .INFO "a.txt")) = some s ∧
      LoggerManager.toYamlString dumpYaml ["root", "system"] s.loggers = some text ∧
      stringToLogDefines dumpYaml text = some v ∧
      setValue terminal booted v = some after ∧
      (after.loggers "system").appenders.map shown = [(.file "a.txt", .UNKNOW)] := by
  obtain ⟨s, set, configured⟩ : ∃ s,
      setValue terminal booted (one (toFile .INFO "a.txt")) = some s ∧
      s.loggers = Function.update booted.loggers "system" systemLogger := ⟨_, rfl, rfl⟩
  have root : s.loggers "root" = rootLogger := by
    rw [configured, Function.update_of_ne (by decide)]
    rfl
  have system : s.loggers "system" = systemLogger := by
    rw [configured, Function.update_self]
  have reached : Reach Booted (StepOf (setValue terminal)) s :=
    .step booted _ s (.start booted booted_booted) set
  have rootLoaded : ∀ i ∈ rootLogger.appenders,
      dumpYaml.load (dumpYaml.emit i.toNode) = some i.toNode := by
    intro i inside
    cases List.mem_singleton.mp inside
    exact load_stdoutText
  have systemLoaded : ∀ i ∈ systemLogger.appenders,
      dumpYaml.load (dumpYaml.emit i.toNode) = some i.toNode := by
    intro i inside
    cases List.mem_singleton.mp inside
    exact load_fileText
  have rootNode : rootLogger.toNode dumpYaml "root" = some (dumpNode "root" rootLogger) :=
    toNode_logger (root ▸ Sound.run rfl reached "root") rootLoaded
  have systemNode : systemLogger.toNode dumpYaml "system" =
      some (dumpNode "system" systemLogger) :=
    toNode_logger (system ▸ Sound.run rfl reached "system") systemLoaded
  have reloads : ReloadsLoggers dumpYaml ["root", "system"] s.loggers := by
    constructor
    · intro name member
      rcases List.mem_cons.mp member with rfl | last
      · rw [root]
        exact rootLoaded
      · cases List.mem_singleton.mp last
        rw [system]
        exact systemLoaded
    · intro name member node built
      rcases List.mem_cons.mp member with rfl | last
      · rw [root, rootNode] at built
        cases built
        exact load_rootText
      · cases List.mem_singleton.mp last
        rw [system, systemNode] at built
        cases built
        exact load_systemText
    · intro nodes built
      rw [List.mapM_cons, List.mapM_cons, root, system, rootNode, systemNode] at built
      cases built
      exact load_allText
  obtain ⟨text, v, after, dumped, read, loaded, same⟩ :=
    dump_reloads rfl reached
      (by decide) List.mem_cons_self (fun name outside => by
        have other := List.ne_of_not_mem_cons outside
        have second := List.ne_of_not_mem_cons (List.not_mem_of_not_mem_cons outside)
        rw [configured, Function.update_of_ne second]
        exact if_neg other) reloads booted_booted
  refine ⟨s, text, v, after, set, dumped, read, loaded, ?_⟩
  rw [same, system]
  rfl

end Witness

end LogIniter

end Sylar
