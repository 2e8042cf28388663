import Sylar.Log.Attach
import Sylar.Log.Reconfigure

namespace Sylar.Attach.State

open Logic

/-! The operations on a logger one section after another, with nothing in between,
are the operations on the logger and its appenders as values. -/

variable {L A F : Type} [DecidableEq L] [DecidableEq A]

/-- What does not change: where and what an appender writes, the level of the logger,
and the patterns of the formatters. -/
structure Fixed (A F : Type) where
  output : A → Output
  appenderLevel : A → LogLevel
  level : LogLevel
  pattern : F → String

def value (fixed : Fixed A F) (s : State L A F) (a : A) : Sylar.LogAppender where
  output := fixed.output a
  level := fixed.appenderLevel a
  formatter := (s.appender a).formatter.map fixed.pattern
  hasFormatter := (s.appender a).hasFormatter

/-- The logger as a value, while nobody holds its lock. -/
structure Shows (fixed : Fixed A F) (s : State L A F) (l : L)
    (logger : Sylar.Logger) : Prop where
  free : (s.logger l).work = none
  level : fixed.level = logger.level
  formatter : (s.logger l).formatter.map fixed.pattern = some logger.formatter
  appenders : (s.logger l).appenders.map (s.value fixed) = logger.appenders

variable {fixed : Fixed A F} {s : State L A F} {l : L} {logger : Sylar.Logger}

/-- The sections of `addAppender`. -/
def adding (s : State L A F) (l : L) (a : A) : List (Action L A F) :=
  if (s.appender a).formatter.isNone then [.addAppender l a, .copy l, .push_back l]
  else [.addAppender l a, .push_back l]

theorem adding_run (free : (s.logger l).work = none) (a : A) :
    ∃ next, exec step s (s.adding l a) = some next ∧
      next.logger l =
        ⟨(s.logger l).formatter, (s.logger l).appenders ++ [a], none⟩ ∧
      next.appender = Function.update s.appender a { s.appender a with
        formatter := (s.appender a).formatter.or (s.logger l).formatter } := by
  unfold adding
  cases given : (s.appender a).formatter with
  | none => simp [exec, step, free, given, setLogger, inherit]
  | some own =>
      have same : { s.appender a with formatter := some own } = s.appender a := by
        rw [← given]
      simp [exec, step, free, given, setLogger, same]

theorem shows_addAppender (shows : s.Shows fixed l logger) {a : A}
    (fresh : a ∉ (s.logger l).appenders) :
    ∃ next, exec step s (s.adding l a) = some next ∧
      next.Shows fixed l (logger.addAppender (s.value fixed a)) := by
  obtain ⟨next, ran, logger_eq, appender⟩ := adding_run shows.free a
  refine ⟨next, ran, ?_, shows.level, ?_, ?_⟩
  · rw [logger_eq]
  · rw [logger_eq]
    exact shows.formatter
  · have others : (s.logger l).appenders.map (next.value fixed) =
        logger.appenders := by
      rw [← shows.appenders]
      apply List.map_congr_left
      intro b member
      have other : b ≠ a := by
        rintro rfl
        exact fresh member
      simp [value, appender, other]
    have formatter := shows.formatter
    rw [logger_eq, List.map_append, others]
    cases given : (s.appender a).formatter <;>
      simp [Logger.addAppender, value, appender, given, formatter]

/-- What one round of the loop of `setFormatter` makes of an appender. -/
def assigned (formatter : Option F) (appender : LogAppender F) : LogAppender F :=
  if appender.hasFormatter then appender else { appender with formatter := formatter }

@[simp] theorem assigned_assigned (formatter : Option F) (appender : LogAppender F) :
    assigned formatter (assigned formatter appender) = assigned formatter appender := by
  cases flag : appender.hasFormatter <;> simp [assigned, flag]

theorem assign_run {rest : List A} (work : (s.logger l).work = some (.setting rest)) :
    ∃ next, exec step s (List.replicate rest.length (.assign l)) = some next ∧
      next.logger l = { s.logger l with work := some (.setting []) } ∧
      ∀ a, next.appender a =
        if a ∈ rest then assigned (s.logger l).formatter (s.appender a)
        else s.appender a := by
  induction rest generalizing s with
  | nil =>
      refine ⟨s, rfl, ?_, by simp⟩
      rw [← work]
  | cons a rest ih =>
      obtain ⟨passed, taken, logger_eq, appender⟩ : ∃ passed : State L A F,
          s.step (.assign l) = some passed ∧
          passed.logger l = { s.logger l with work := some (.setting rest) } ∧
          passed.appender = Function.update s.appender a
            (assigned (s.logger l).formatter (s.appender a)) := by
        cases flag : (s.appender a).hasFormatter <;>
          simp [step, work, flag, assigned, setLogger, inherit]
      obtain ⟨next, ran, after, all⟩ := ih (by rw [logger_eq])
      refine ⟨next, ?_, ?_, ?_⟩
      · rw [List.length_cons, List.replicate_succ, exec, taken]
        exact ran
      · rw [after, logger_eq]
      · intro b
        rw [all, logger_eq, appender]
        by_cases same : b = a
        · subst same
          simp
        · simp [same]

/-- The sections of `setFormatter` with a pattern. -/
def setting (s : State L A F) (l : L) (val : F) (isError : Bool) :
    List (Action L A F) :=
  .setPattern l val isError ::
    if isError then []
    else List.replicate (s.logger l).appenders.length (.assign l) ++ [.unlock l]

theorem shows_setFormatter (shows : s.Shows fixed l logger)
    (isError : String → Bool) (val : F) :
    ∃ next, exec step s (s.setting l val (isError (fixed.pattern val))) = some next ∧
      next.Shows fixed l (logger.setFormatter isError (fixed.pattern val)) := by
  cases invalid : isError (fixed.pattern val) with
  | true =>
      refine ⟨s, by simp [setting, exec, step], ?_⟩
      simpa [Logger.setFormatter, invalid] using shows
  | false =>
      have started : (s.setFormatter l (some val)).logger l =
          ⟨some val, (s.logger l).appenders, some (.setting (s.logger l).appenders)⟩ := by
        simp [setFormatter, setLogger]
      obtain ⟨passed, ran, logger_eq, appender⟩ :=
        @assign_run _ _ _ _ _ (s.setFormatter l (some val)) l _ (by rw [started])
      rw [started] at logger_eq appender
      refine ⟨passed.setLogger l { passed.logger l with work := none }, ?_, ?_⟩
      · have first : s.step (.setPattern l val false) =
            some (s.setFormatter l (some val)) := by
          simp [step, shows.free]
        have last : passed.step (.unlock l) =
            some (passed.setLogger l { passed.logger l with work := none }) := by
          simp [step, logger_eq]
        simp [setting, exec, first, exec_append, ran, last]
      · have set : logger.setFormatter isError (fixed.pattern val) =
            { logger with
              formatter := fixed.pattern val
              appenders := logger.appenders.map fun i =>
                if i.hasFormatter then i
                else { i with formatter := some (fixed.pattern val) } } := by
          simp [Logger.setFormatter, invalid]
        rw [set]
        refine ⟨?_, shows.level, ?_, ?_⟩
        · simp [setLogger]
        · simp [setLogger, logger_eq]
        · rw [← shows.appenders, List.map_map]
          simp only [setLogger, Function.update_self, logger_eq]
          apply List.map_congr_left
          intro a member
          have after := appender a
          rw [if_pos member] at after
          cases flag : (s.appender a).hasFormatter <;>
            simp [value, after, assigned, setFormatter, setLogger, flag]

theorem shows_clearAppenders (shows : s.Shows fixed l logger) :
    ∃ next, s.step (.clearAppenders l) = some next ∧
      next.Shows fixed l { logger with appenders := [] } := by
  refine ⟨s.setLogger l { s.logger l with appenders := [] }, ?_, ?_⟩
  · simp [step, shows.free]
  · refine ⟨?_, shows.level, ?_, ?_⟩
    · simpa [setLogger] using shows.free
    · simpa [setLogger] using shows.formatter
    · simp [setLogger]

end Sylar.Attach.State
