import Sylar.Log.Reconfigure
import Sylar.Log.Rotation

namespace Sylar.LogIniter

open Data Logic

/-! `Logger::log` on the loggers of a configuration: where an event goes. -/

/-- `LogAppender::log` of each appender, for those that write the event. -/
def formats (logger : Logger) (level : LogLevel) : List LogAppender :=
  logger.appenders.filter fun i => decide (i.level ≤ level)

/-- `Logger::log`, as the appenders that write the event. Only the root logger has
no `m_root`. -/
def log (loggers : String → Logger) (name : String) (level : LogLevel) :
    List LogAppender :=
  if (loggers name).level ≤ level then
    if (loggers name).appenders ≠ [] then formats (loggers name) level
    else if name = "root" then []
    else if (loggers "root").level ≤ level then formats (loggers "root") level
    else []
  else []

/-- The outputs that a definition asks for. -/
def asked (env : Env) (i : LogDefine) (level : LogLevel) : List Output :=
  if i.level ≤ level then
    ((i.appenders.filterMap (wanted env)).filter fun a => decide (a.2 ≤ level)).map
      Prod.fst
  else []

/-- `main` has begun: the root logger writes to the terminal, and every other logger
is as `getLogger` makes it. -/
structure Booted (s : State) : Prop where
  value : s.value.list = []
  root : s.loggers "root" = Logger.new.addAppender { output := .stdout }
  others : ∀ name, name ≠ "root" → s.loggers name = .new

/-- A logger that is defined nowhere lets every event through to the root logger. -/
def Idle (logger : Logger) : Prop :=
  logger.appenders = [] ∧ (logger.level = .UNKNOW ∨ logger.level = .DEBUG)

def Formatted (logger : Logger) : Prop :=
  ∀ i ∈ logger.appenders, i.formatter.isSome = true

structure Kept (env : Env) (s : State) : Prop where
  applied : Applied env s
  idle : ∀ name, name ≠ "root" → (∀ i ∈ s.value.list, i.name ≠ name) →
    Idle (s.loggers name)
  formatted : ∀ name, Formatted (s.loggers name)

variable {env : Env} {s after : State} {logger : Logger} {level : LogLevel}

section Formatters

theorem formatted_of_nil (empty : logger.appenders = []) : Formatted logger := by
  intro i member
  rw [empty] at member
  cases member

theorem Formatted.addAppender (formatted : Formatted logger) (appender : LogAppender) :
    Formatted (logger.addAppender appender) := by
  intro i member
  rcases List.mem_append.mp member with before | added
  · exact formatted i before
  · rw [List.mem_singleton] at added
    subst added
    split
    · rfl
    · rename_i own
      exact Option.isSome_iff_ne_none.mpr (by simpa using own)

theorem formatted_addAppenders {defines : List LogAppenderDefine} {after : Logger}
    (formatted : Formatted logger)
    (added : addAppenders env logger defines = some after) : Formatted after := by
  induction defines generalizing logger with
  | nil =>
      cases added
      exact formatted
  | cons a rest ih =>
      unfold addAppenders at added
      split at added
      · exact ih (formatted.addAppender _) added
      · split at added
        · split at added
          · exact ih (formatted.addAppender _) added
          · exact ih formatted added
        · cases added

theorem formatted_applyNew {old_value : LogDefines} {defines : List LogDefine}
    {loggers after : String → Logger} (formatted : ∀ name, Formatted (loggers name))
    (applied : applyNew env old_value loggers defines = some after) (name : String) :
    Formatted (after name) := by
  induction defines generalizing loggers with
  | nil =>
      cases applied
      exact formatted name
  | cons i rest ih =>
      unfold applyNew at applied
      split at applied
      · exact ih formatted applied
      · obtain ⟨logger, configured, later⟩ := Option.bind_eq_some_iff.mp applied
        apply ih _ later
        intro other
        rw [Function.update_apply]
        split
        · exact formatted_addAppenders (formatted_of_nil rfl) configured
        · exact formatted other

end Formatters

section Removed

variable {new_value : LogDefines} {defines : List LogDefine}
  {loggers : String → Logger} {name : String}

/-- What holds of a logger that is cleared, or left alone, holds after the loop. -/
theorem removeOld_keeps {property : Logger → Prop}
    (clears : ∀ logger : Logger, property { logger with level := .UNKNOW, appenders := [] })
    (before : property (loggers name)) :
    property (removeOld new_value loggers defines name) := by
  induction defines generalizing loggers with
  | nil => exact before
  | cons i rest ih =>
      cases found : OrderedSet.find LogDefine.name i new_value.list with
      | none =>
          rw [removeOld_none found]
          apply ih
          rw [Function.update_apply]
          split
          · exact clears _
          · exact before
      | some it =>
          rw [removeOld_some found]
          exact ih before

theorem idle_cleared (logger : Logger) :
    Idle { logger with level := .UNKNOW, appenders := [] } :=
  ⟨rfl, .inl rfl⟩

theorem removeOld_idle {i : LogDefine} (member : i ∈ defines)
    (absent : OrderedSet.find LogDefine.name i new_value.list = none) :
    Idle (removeOld new_value loggers defines i.name) := by
  induction defines generalizing loggers with
  | nil => cases member
  | cons head rest ih =>
      rcases List.mem_cons.mp member with rfl | later
      · rw [removeOld_none absent]
        apply removeOld_keeps idle_cleared
        rw [Function.update_self]
        exact idle_cleared _
      · cases found : OrderedSet.find LogDefine.name head new_value.list with
        | none =>
            rw [removeOld_none found]
            exact ih later
        | some it =>
            rw [removeOld_some found]
            exact ih later

end Removed

theorem Kept.step (kept : Kept env s) {v : LogDefines}
    (compared : Compared env s.value v) (set : setValue env s v = some after) :
    Kept env after := by
  have applied := applied_step kept.applied compared set
  unfold setValue at set
  split at set
  · cases set
    exact kept
  · obtain ⟨loggers, heard, rfl⟩ := Option.map_eq_some_iff.mp set
    obtain ⟨middle, new, rfl⟩ := Option.map_eq_some_iff.mp heard
    refine ⟨applied, ?_, ?_⟩
    · intro name root absent
      by_cases old : ∃ i ∈ s.value.list, i.name = name
      · obtain ⟨i, member, rfl⟩ := old
        exact removeOld_idle member ((OrderedSet.find_eq_none v.sorted).mpr absent)
      · have before := kept.idle name root fun i member named => old ⟨i, member, named⟩
        apply removeOld_keeps idle_cleared
        rw [(applyNew_spec v.sorted new).2.2 name absent]
        exact before
    · intro name
      apply removeOld_keeps
      · exact fun logger => formatted_of_nil rfl
      · exact formatted_applyNew kept.formatted new name

theorem Booted.kept (booted : Booted s) : Kept env s where
  applied i member := by
    rw [booted.value] at member
    cases member
  idle name root _ := by
    rw [booted.others name root]
    exact ⟨rfl, .inr rfl⟩
  formatted name := by
    by_cases root : name = "root"
    · rw [root, booted.root]
      exact (formatted_of_nil rfl).addAppender _
    · rw [booted.others name root]
      exact formatted_of_nil rfl

def booted : State where
  value := ⟨[], OrderedSet.sorted_nil _⟩
  loggers name :=
    if name = "root" then Logger.new.addAppender { output := .stdout } else .new

theorem booted_booted : Booted booted where
  value := rfl
  root := rfl
  others _ other := if_neg other

end Sylar.LogIniter
