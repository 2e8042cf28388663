import Mathlib.Data.List.Forall2
import Mathlib.Logic.Function.Basic
import Sylar.Data.OrderedSet
import Sylar.Log.Define
import Sylar.Logic.Reach

namespace Sylar

open Data Logic

/-! The loggers, and what the listener of the `logs` configuration makes of them. A
formatter is its pattern. -/

namespace LogDefine

/-- The last comparison is of the vector with itself. -/
def equal (i oth : LogDefine) : Bool :=
  i.name == oth.name && i.level == oth.level && i.formatter == oth.formatter &&
    i.appenders == i.appenders

end LogDefine

/-- `std::set<LogDefine>`; `operator<` compares the names. -/
structure LogDefines where
  list : List LogDefine
  sorted : OrderedSet.Sorted LogDefine.name list

inductive Output
  | file (filename : String)
  | stdout
  deriving DecidableEq, Repr

structure LogAppender where
  output : Output
  level : LogLevel := .DEBUG
  formatter : Option String := none
  hasFormatter : Bool := false
  deriving DecidableEq, Repr

structure Logger where
  level : LogLevel
  formatter : String
  appenders : List LogAppender
  deriving DecidableEq, Repr

namespace Logger

def new : Logger where
  level := .DEBUG
  formatter := "%d\x7b%Y-%m-%d %H:%M:%S\x7d%T%t%T%N%T%F%T[%p]%T[%c]%T%f:%l%T%m%n"
  appenders := []

/-- `isError` is that of a `LogFormatter` with the pattern. -/
def setFormatter (logger : Logger) (isError : String → Bool) (val : String) : Logger :=
  if isError val then logger
  else
    { logger with
      formatter := val
      appenders := logger.appenders.map fun i =>
        if i.hasFormatter then i else { i with formatter := some val } }

def addAppender (logger : Logger) (appender : LogAppender) : Logger :=
  { logger with appenders := logger.appenders ++
      [if appender.formatter.isNone then
        { appender with formatter := some logger.formatter }
      else appender] }

end Logger

namespace LogIniter

/-- `daemon` is `has("d")`. -/
structure Env where
  daemon : Bool
  isError : String → Bool

/-- A logger that `m_loggers` does not have yet is kept as the one `getLogger` makes
for it. -/
structure State where
  value : LogDefines
  loggers : String → Logger

variable (env : Env)

/-- The level and the formatter of a new appender. -/
def setUp (ap : LogAppender) (a : LogAppenderDefine) : LogAppender :=
  if a.formatter ≠ "" ∧ env.isError a.formatter = false then
    { ap with level := a.level, formatter := some a.formatter, hasFormatter := true }
  else { ap with level := a.level }

/-- The loop over the appenders. Another type leaves `ap` null, which is
dereferenced. -/
def addAppenders : Logger → List LogAppenderDefine → Option Logger
  | logger, [] => some logger
  | logger, a :: rest =>
      if a.type = 1 then
        addAppenders (logger.addAppender (setUp env { output := .file a.file } a)) rest
      else if a.type = 2 then
        if !env.daemon then
          addAppenders (logger.addAppender (setUp env { output := .stdout } a)) rest
        else addAppenders logger rest
      else none

/-- `clearAppenders` comes after `setFormatter`. -/
def configure (logger : Logger) (i : LogDefine) : Option Logger :=
  let logger := { logger with level := i.level }
  let logger :=
    if i.formatter ≠ "" then logger.setFormatter env.isError i.formatter else logger
  addAppenders env { logger with appenders := [] } i.appenders

/-- `continue` in the first loop. -/
def unchanged (old_value : LogDefines) (i : LogDefine) : Bool :=
  match OrderedSet.find LogDefine.name i old_value.list with
  | none => false
  | some it => i.equal it

def applyNew (old_value : LogDefines) :
    (String → Logger) → List LogDefine → Option (String → Logger)
  | loggers, [] => some loggers
  | loggers, i :: rest =>
      if unchanged old_value i then applyNew old_value loggers rest
      else
        (configure env (loggers i.name) i).bind fun logger =>
          applyNew old_value (Function.update loggers i.name logger) rest

def removeOld (new_value : LogDefines) :
    (String → Logger) → List LogDefine → (String → Logger)
  | loggers, [] => loggers
  | loggers, i :: rest =>
      match OrderedSet.find LogDefine.name i new_value.list with
      | none =>
          removeOld new_value (Function.update loggers i.name
            { loggers i.name with level := .UNKNOW, appenders := [] }) rest
      | some _ => removeOld new_value loggers rest

def listener (old_value new_value : LogDefines) (loggers : String → Logger) :
    Option (String → Logger) :=
  (applyNew env old_value loggers new_value.list).map fun loggers =>
    removeOld new_value loggers old_value.list

/-- `v == m_value` -/
def same (v m_value : LogDefines) : Bool :=
  v.list.length == m_value.list.length &&
    (v.list.zip m_value.list).all fun i => i.1.equal i.2

/-- `g_log_defines->setValue(v)`; `none` is the null appender. -/
def setValue (s : State) (v : LogDefines) : Option State :=
  if same v s.value then some s
  else (listener env s.value v s.loggers).map fun loggers => ⟨v, loggers⟩

/-! What the configuration asks of the loggers. -/

/-- What the appender of a definition is to be, unless it is skipped. -/
def wanted (a : LogAppenderDefine) : Option (Output × LogLevel) :=
  if a.type = 1 then some (.file a.file, a.level)
  else if a.type = 2 ∧ env.daemon = false then some (.stdout, a.level)
  else none

def shown (appender : LogAppender) : Output × LogLevel :=
  (appender.output, appender.level)

def Known (i : LogDefine) : Prop := ∀ a ∈ i.appenders, a.type = 1 ∨ a.type = 2

structure Shows (logger : Logger) (i : LogDefine) : Prop where
  level : logger.level = i.level
  known : Known i
  appenders : logger.appenders.map shown = i.appenders.filterMap (wanted env)

/-- The loggers are as the new value has them, and those it does not name any more have
no appenders. -/
def TakesEffect (s : State) (v : LogDefines) : Prop :=
  ∃ after, setValue env s v = some after ∧
    (∀ i ∈ v.list, Shows env (after.loggers i.name) i) ∧
    ∀ i ∈ s.value.list, (∀ other ∈ v.list, other.name ≠ i.name) →
      (after.loggers i.name).appenders = []

/-- No definition differs from the one of its name in its appenders only. -/
def Compared (old_value new_value : LogDefines) : Prop :=
  (∀ i ∈ new_value.list, Known i) ∧
  ∀ i ∈ new_value.list, ∀ it ∈ old_value.list, i.name = it.name →
    i.level = it.level → i.formatter = it.formatter →
    i.appenders.filterMap (wanted env) = it.appenders.filterMap (wanted env)

variable {env}

theorem equal_iff (i it : LogDefine) :
    i.equal it = true ↔
      i.name = it.name ∧ i.level = it.level ∧ i.formatter = it.formatter := by
  simp [LogDefine.equal, and_assoc]

theorem unchanged_iff (old_value : LogDefines) (i : LogDefine) :
    unchanged old_value i = true ↔
      ∃ it ∈ old_value.list, i.name = it.name ∧ i.level = it.level ∧
        i.formatter = it.formatter := by
  unfold unchanged
  constructor
  · intro kept
    split at kept
    · cases kept
    · rename_i it found
      exact ⟨it, (OrderedSet.of_find found).1, (equal_iff i it).mp kept⟩
  · rintro ⟨it, member, agrees⟩
    rw [OrderedSet.find_eq_some old_value.sorted member agrees.1.symm]
    exact (equal_iff i it).mpr agrees

/-! One logger. -/

theorem shown_setUp (ap : LogAppender) (a : LogAppenderDefine) :
    shown (setUp env ap a) = (ap.output, a.level) := by
  unfold setUp
  split <;> rfl

theorem shown_addAppender (logger : Logger) (appender : LogAppender) :
    (logger.addAppender appender).appenders.map shown =
      logger.appenders.map shown ++ [shown appender] := by
  unfold Logger.addAppender
  split <;> simp [shown]

theorem addAppenders_cons {a : LogAppenderDefine} {rest : List LogAppenderDefine}
    {logger after : Logger}
    (added : addAppenders env logger (a :: rest) = some after) :
    (a.type = 1 ∨ a.type = 2) ∧ ∃ next, addAppenders env next rest = some after ∧
      next.level = logger.level ∧
      next.appenders.map shown =
        logger.appenders.map shown ++ (wanted env a).toList := by
  unfold addAppenders at added
  split at added
  · rename_i file
    refine ⟨.inl file, _, added, rfl, ?_⟩
    rw [shown_addAppender, shown_setUp]
    simp [wanted, file]
  · split at added
    · rename_i stdout
      refine ⟨.inr stdout, ?_⟩
      split at added
      · rename_i terminal
        have here : wanted env a = some (.stdout, a.level) := by
          simpa [wanted, stdout] using terminal
        refine ⟨_, added, rfl, ?_⟩
        rw [shown_addAppender, shown_setUp, here]
        rfl
      · rename_i background
        have here : wanted env a = none := by
          simpa [wanted, stdout] using background
        refine ⟨logger, added, rfl, ?_⟩
        rw [here, Option.toList_none, List.append_nil]
    · cases added

theorem addAppenders_spec {defines : List LogAppenderDefine} {logger after : Logger}
    (added : addAppenders env logger defines = some after) :
    after.level = logger.level ∧ (∀ a ∈ defines, a.type = 1 ∨ a.type = 2) ∧
      after.appenders.map shown =
        logger.appenders.map shown ++ defines.filterMap (wanted env) := by
  induction defines generalizing logger with
  | nil =>
      cases added
      simp
  | cons a rest ih =>
      obtain ⟨type, next, later, unchanged, appended⟩ := addAppenders_cons added
      obtain ⟨level, known, appenders⟩ := ih later
      refine ⟨level.trans unchanged, ?_, ?_⟩
      · exact List.forall_mem_cons.mpr ⟨type, known⟩
      · rw [appenders, appended, List.append_assoc]
        cases wanted_a : wanted env a <;> simp [wanted_a]

theorem addAppenders_known {defines : List LogAppenderDefine}
    (known : ∀ a ∈ defines, a.type = 1 ∨ a.type = 2) (logger : Logger) :
    ∃ after, addAppenders env logger defines = some after := by
  induction defines generalizing logger with
  | nil => exact ⟨logger, rfl⟩
  | cons a rest ih =>
      have later := ih fun other member => known other (List.mem_cons_of_mem a member)
      unfold addAppenders
      split
      · exact later _
      · rename_i other
        rw [if_pos ((known a List.mem_cons_self).resolve_left other)]
        split
        · exact later _
        · exact later _

theorem configure_shows {logger after : Logger} {i : LogDefine}
    (configured : configure env logger i = some after) : Shows env after i := by
  obtain ⟨level, known, appenders⟩ := addAppenders_spec configured
  refine ⟨?_, known, appenders⟩
  rw [level]
  simp only [Logger.setFormatter]
  split
  · split <;> rfl
  · rfl

/-! The two loops. -/

theorem applyNew_cons {old_value : LogDefines} {i : LogDefine} {rest : List LogDefine}
    {loggers after : String → Logger}
    (applied : applyNew env old_value loggers (i :: rest) = some after) :
    ∃ next, applyNew env old_value next rest = some after ∧
      (unchanged old_value i = true → next i.name = loggers i.name) ∧
      (unchanged old_value i = false → Shows env (next i.name) i) ∧
      ∀ name, name ≠ i.name → next name = loggers name := by
  unfold applyNew at applied
  split at applied
  · rename_i kept
    refine ⟨loggers, applied, fun _ => rfl, ?_, fun _ _ => rfl⟩
    intro changed
    rw [kept] at changed
    cases changed
  · rename_i changed
    obtain ⟨logger, configured, later⟩ := Option.bind_eq_some_iff.mp applied
    refine ⟨_, later, fun kept => absurd kept changed, ?_, ?_⟩
    · intro _
      rw [Function.update_self]
      exact configure_shows configured
    · intro name other
      exact Function.update_of_ne other ..

theorem applyNew_spec {old_value : LogDefines} {defines : List LogDefine}
    (distinct : defines.Pairwise fun first second => first.name < second.name)
    {loggers after : String → Logger}
    (applied : applyNew env old_value loggers defines = some after) :
    (∀ i ∈ defines, unchanged old_value i = true →
      after i.name = loggers i.name) ∧
    (∀ i ∈ defines, unchanged old_value i = false →
      Shows env (after i.name) i) ∧
    ∀ name, (∀ i ∈ defines, i.name ≠ name) → after name = loggers name := by
  induction defines generalizing loggers with
  | nil =>
      cases applied
      simp
  | cons i rest ih =>
      obtain ⟨first, distinct⟩ := List.pairwise_cons.mp distinct
      have apart : ∀ other ∈ rest, other.name ≠ i.name :=
        fun other member => (first other member).ne'
      obtain ⟨next, later, kept, configured, frame⟩ := applyNew_cons applied
      obtain ⟨same, shows, others⟩ := ih distinct later
      -- The names differ, so the rest of the loop leaves the logger alone.
      have own : after i.name = next i.name := others i.name apart
      refine ⟨?_, ?_, ?_⟩
      · refine List.forall_mem_cons.mpr ⟨fun still => own.trans (kept still), ?_⟩
        intro other member still
        exact (same other member still).trans (frame other.name (apart other member))
      · refine List.forall_mem_cons.mpr ⟨fun changed => ?_, shows⟩
        rw [own]
        exact configured changed
      · intro name absent
        obtain ⟨here, absent⟩ := List.forall_mem_cons.mp absent
        exact (others name absent).trans (frame name here.symm)

theorem applyNew_known {old_value : LogDefines} {defines : List LogDefine}
    (known : ∀ i ∈ defines, Known i) (loggers : String → Logger) :
    ∃ after, applyNew env old_value loggers defines = some after := by
  induction defines generalizing loggers with
  | nil => exact ⟨loggers, rfl⟩
  | cons i rest ih =>
      have later := ih fun other member => known other (List.mem_cons_of_mem i member)
      unfold applyNew
      split
      · exact later loggers
      · obtain ⟨logger, configured⟩ :
            ∃ logger, configure env (loggers i.name) i = some logger :=
          addAppenders_known (known i List.mem_cons_self) _
        rw [configured, Option.bind_some]
        exact later _

theorem removeOld_none {new_value : LogDefines} {i : LogDefine}
    (absent : OrderedSet.find LogDefine.name i new_value.list = none)
    (loggers : String → Logger) (rest : List LogDefine) :
    removeOld new_value loggers (i :: rest) =
      removeOld new_value (Function.update loggers i.name
        { loggers i.name with level := .UNKNOW, appenders := [] }) rest := by
  rw [removeOld, absent]

theorem removeOld_some {new_value : LogDefines} {i it : LogDefine}
    (present : OrderedSet.find LogDefine.name i new_value.list = some it)
    (loggers : String → Logger) (rest : List LogDefine) :
    removeOld new_value loggers (i :: rest) = removeOld new_value loggers rest := by
  rw [removeOld, present]

theorem removeOld_kept {new_value : LogDefines} {defines : List LogDefine}
    {name : String} (named : ∀ i ∈ defines, i.name = name →
      OrderedSet.find LogDefine.name i new_value.list ≠ none)
    (loggers : String → Logger) :
    removeOld new_value loggers defines name = loggers name := by
  induction defines generalizing loggers with
  | nil => rfl
  | cons i rest ih =>
      have later := ih fun other member => named other (List.mem_cons_of_mem i member)
      cases found : OrderedSet.find LogDefine.name i new_value.list with
      | none =>
          rw [removeOld_none found, later]
          apply Function.update_of_ne
          rintro rfl
          exact named i List.mem_cons_self rfl found
      | some it => rw [removeOld_some found, later]

theorem removeOld_empty {new_value : LogDefines} {defines : List LogDefine}
    {loggers : String → Logger} {name : String}
    (empty : (loggers name).appenders = []) :
    (removeOld new_value loggers defines name).appenders = [] := by
  induction defines generalizing loggers with
  | nil => exact empty
  | cons i rest ih =>
      cases found : OrderedSet.find LogDefine.name i new_value.list with
      | none =>
          rw [removeOld_none found]
          apply ih
          rcases eq_or_ne name i.name with rfl | other
          · rw [Function.update_self]
          · rw [Function.update_of_ne other]
            exact empty
      | some it =>
          rw [removeOld_some found]
          exact ih empty

theorem removeOld_removed {new_value : LogDefines} {defines : List LogDefine}
    {i : LogDefine} (member : i ∈ defines)
    (absent : OrderedSet.find LogDefine.name i new_value.list = none)
    (loggers : String → Logger) :
    (removeOld new_value loggers defines i.name).appenders = [] := by
  induction defines generalizing loggers with
  | nil => cases member
  | cons head rest ih =>
      rcases List.mem_cons.mp member with rfl | later
      · rw [removeOld_none absent]
        apply removeOld_empty
        rw [Function.update_self]
      · cases found : OrderedSet.find LogDefine.name head new_value.list with
        | none =>
            rw [removeOld_none found]
            exact ih later _
        | some it =>
            rw [removeOld_some found]
            exact ih later _

/-! `setValue` -/

theorem matched_members {related : α → β → Prop} {first : List α} {second : List β}
    (matched : List.Forall₂ related first second) :
    (∀ a ∈ first, ∃ b ∈ second, related a b) ∧
      ∀ b ∈ second, ∃ a ∈ first, related a b := by
  induction matched with
  | nil => simp
  | cons here later ih =>
      simp only [List.mem_cons, forall_eq_or_imp, exists_eq_or_imp]
      exact ⟨⟨.inl here, fun a member => .inr (ih.1 a member)⟩,
        .inl here, fun b member => .inr (ih.2 b member)⟩

theorem same_spec {v m_value : LogDefines} (equal : same v m_value = true) :
    (∀ i ∈ v.list, unchanged m_value i = true) ∧
      ∀ it ∈ m_value.list, ∃ i ∈ v.list, i.name = it.name := by
  unfold same at equal
  rw [Bool.and_eq_true, beq_iff_eq, List.all_eq_true] at equal
  have matched : List.Forall₂ (fun i it : LogDefine => i.equal it = true) v.list
      m_value.list :=
    List.forall₂_iff_zip.mpr ⟨equal.1, fun inside => equal.2 _ inside⟩
  obtain ⟨each, covered⟩ := matched_members matched
  refine ⟨?_, ?_⟩
  · intro i member
    obtain ⟨it, inside, agrees⟩ := each i member
    exact (unchanged_iff m_value i).mpr ⟨it, inside, (equal_iff i it).mp agrees⟩
  · intro it member
    obtain ⟨i, inside, agrees⟩ := covered it member
    exact ⟨i, inside, ((equal_iff i it).mp agrees).1⟩

theorem setValue_spec {s after : State} {v : LogDefines}
    (set : setValue env s v = some after) :
    (∀ i ∈ v.list, unchanged s.value i = true →
      after.loggers i.name = s.loggers i.name) ∧
    (∀ i ∈ v.list, unchanged s.value i = false →
      Shows env (after.loggers i.name) i) ∧
    (∀ i ∈ s.value.list, (∀ other ∈ v.list, other.name ≠ i.name) →
      (after.loggers i.name).appenders = []) ∧
    (after = s ∨ after.value = v) := by
  unfold setValue at set
  split at set
  · rename_i equal
    cases set
    obtain ⟨all, covered⟩ := same_spec equal
    refine ⟨fun _ _ _ => rfl, ?_, ?_, .inl rfl⟩
    · intro i member changed
      rw [all i member] at changed
      cases changed
    · intro it member absent
      obtain ⟨i, inside, named⟩ := covered it member
      exact absurd named (absent i inside)
  · obtain ⟨loggers, heard, rfl⟩ := Option.map_eq_some_iff.mp set
    obtain ⟨middle, applied, rfl⟩ := Option.map_eq_some_iff.mp heard
    obtain ⟨kept, shows, -⟩ := applyNew_spec v.sorted applied
    have named : ∀ i ∈ v.list, removeOld v middle s.value.list i.name =
        middle i.name := by
      intro i member
      apply removeOld_kept
      intro other _ same absent
      exact (OrderedSet.find_eq_none v.sorted).mp absent i member same.symm
    refine ⟨?_, ?_, ?_, .inr rfl⟩
    · intro i member unchanged
      exact (named i member).trans (kept i member unchanged)
    · intro i member changed
      change Shows env (removeOld v middle s.value.list i.name) i
      rw [named i member]
      exact shows i member changed
    · intro i member absent
      exact removeOld_removed member ((OrderedSet.find_eq_none v.sorted).mpr absent) middle

theorem setValue_known {v : LogDefines} (known : ∀ i ∈ v.list, Known i) (s : State) :
    ∃ after, setValue env s v = some after := by
  unfold setValue
  split
  · exact ⟨s, rfl⟩
  · obtain ⟨loggers, applied⟩ := applyNew_known known s.loggers
    rw [listener, applied]
    exact ⟨_, rfl⟩

def Applied (env : Env) (s : State) : Prop :=
  ∀ i ∈ s.value.list, Shows env (s.loggers i.name) i

theorem takesEffect_iff {s : State} (applied : Applied env s) (v : LogDefines) :
    TakesEffect env s v ↔ Compared env s.value v := by
  constructor
  · rintro ⟨after, set, shows, -⟩
    refine ⟨fun i member => (shows i member).known, ?_⟩
    intro i member it inside name level formatter
    have kept := (setValue_spec set).1 i member
      ((unchanged_iff s.value i).mpr ⟨it, inside, name, level, formatter⟩)
    rw [← (shows i member).appenders, kept, name]
    exact (applied it inside).appenders
  · rintro ⟨known, compared⟩
    obtain ⟨after, set⟩ := @setValue_known env v known s
    obtain ⟨kept, shows, removed, -⟩ := setValue_spec set
    refine ⟨after, set, ?_, removed⟩
    intro i member
    cases same : unchanged s.value i with
    | false => exact shows i member same
    | true =>
        obtain ⟨it, inside, name, level, formatter⟩ := (unchanged_iff s.value i).mp same
        have before := applied it inside
        rw [kept i member same, name]
        refine ⟨before.level.trans level.symm, known i member, ?_⟩
        rw [compared i member it inside name level formatter]
        exact before.appenders

theorem applied_step {s after : State} {v : LogDefines} (applied : Applied env s)
    (compared : Compared env s.value v) (set : setValue env s v = some after) :
    Applied env after := by
  rcases (setValue_spec set).2.2.2 with rfl | value
  · exact applied
  · obtain ⟨result, again, shows, -⟩ := (takesEffect_iff applied v).mpr compared
    obtain rfl := Option.some.inj (again.symm.trans set)
    intro i member
    rw [value] at member
    exact shows i member

def Started (s : State) : Prop := s.value.list = []

theorem applied_run {s : State}
    (reached : Reach Started
      (StepWhen (setValue env) fun s v => Compared env s.value v) s) :
    Applied env s := by
  refine @Reach.invariant _ _ _ _ (Applied env) ?_ ?_ _ reached
  · intro start started i member
    rw [started] at member
    cases member
  · intro before v after applied taken
    exact applied_step applied taken.1 taken.2

/-- A value takes effect when it has no appenders of another type and differs from the
old one in more than the appenders of a logger wherever it differs in these. -/
theorem reconfigure_iff {s : State}
    (reached : Reach Started
      (StepWhen (setValue env) fun s v => Compared env s.value v) s)
    (v : LogDefines) : TakesEffect env s v ↔ Compared env s.value v :=
  takesEffect_iff (applied_run reached) v

/-! One logger with a file. -/

def terminal : Env := ⟨false, fun _ => false⟩

def initial : State := ⟨⟨[], OrderedSet.sorted_nil _⟩, fun _ => .new⟩

def one (i : LogDefine) : LogDefines := ⟨[i], List.pairwise_singleton _ _⟩

def toFile (level : LogLevel) (filename : String) : LogDefine where
  name := "system"
  level := level
  appenders := [{ type := 1, level := .INFO, file := filename }]

/-- The level changes, and with it the file. -/
theorem reconfigure_level :
    ∃ s, setValue terminal initial (one (toFile .INFO "a.txt")) = some s ∧
      TakesEffect terminal s (one (toFile .WARN "b.txt")) := by
  obtain ⟨s, set, value⟩ : ∃ s,
      setValue terminal initial (one (toFile .INFO "a.txt")) = some s ∧
      s.value = one (toFile .INFO "a.txt") := ⟨_, rfl, rfl⟩
  have reached : Reach Started
      (StepWhen (setValue terminal) fun s v => Compared terminal s.value v) s := by
    refine .step _ (one (toFile .INFO "a.txt")) _ (.start initial rfl) ⟨⟨?_, ?_⟩, set⟩
    · simp [one, toFile, Known]
    · simp [initial]
  refine ⟨s, set, (reconfigure_iff reached _).mpr ⟨?_, ?_⟩⟩
  · simp [one, toFile, Known]
  · rw [value]
    simp [one, toFile]

/-- Only the file changes: the logger keeps the old one. -/
theorem reconfigure_file :
    ∃ s, setValue terminal initial (one (toFile .INFO "a.txt")) = some s ∧
      setValue terminal s (one (toFile .INFO "b.txt")) = some s ∧
      (s.loggers "system").appenders.map shown = [(.file "a.txt", .INFO)] ∧
      ¬TakesEffect terminal s (one (toFile .INFO "b.txt")) := by
  obtain ⟨s, set, again, appenders⟩ : ∃ s,
      setValue terminal initial (one (toFile .INFO "a.txt")) = some s ∧
      setValue terminal s (one (toFile .INFO "b.txt")) = some s ∧
      (s.loggers "system").appenders.map shown = [(.file "a.txt", .INFO)] :=
    ⟨_, rfl, rfl, rfl⟩
  refine ⟨s, set, again, appenders, ?_⟩
  rintro ⟨after, taken, shows, -⟩
  obtain rfl := Option.some.inj (again.symm.trans taken)
  have changed := (shows _ List.mem_cons_self).appenders
  change (s.loggers "system").appenders.map shown = [(.file "b.txt", .INFO)] at changed
  rw [appenders] at changed
  exact absurd changed (by decide)

end LogIniter

end Sylar
