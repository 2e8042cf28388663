import Mathlib.Data.Fintype.Basic
import Mathlib.Logic.Function.Basic
import Sylar.Logic.Reach

namespace Sylar.Attach

open Logic

/-! Loggers and the appenders attached to them, in the sections that hold a lock.
`L` are the loggers, `A` the appenders and `F` the formatters, each told apart by
its address. -/

structure LogAppender (F : Type) where
  formatter : Option F := none
  hasFormatter : Bool := false
  deriving DecidableEq, Repr

/-- What the holder of a logger's `m_mutex` has still to do. -/
inductive Work (A : Type)
  /-- `addAppender`, with whether it found no formatter and has still to copy -/
  | adding (appender : A) (copy : Bool)
  /-- the rest of the loop of `setFormatter` -/
  | setting (rest : List A)
  deriving DecidableEq, Repr

structure Logger (A F : Type) where
  formatter : Option F
  appenders : List A
  work : Option (Work A)
  deriving DecidableEq, Repr

structure State (L A F : Type) where
  logger : L → Logger A F
  appender : A → LogAppender F
  /-- what `LogAppender::setFormatter` was last called with -/
  own : A → Option F

inductive Action (L A F : Type)
  | addAppender (logger : L) (appender : A)
  | copy (logger : L)
  | push_back (logger : L)
  | delAppender (logger : L) (appender : A)
  | clearAppenders (logger : L)
  | setFormatter (logger : L) (val : Option F)
  /-- `setFormatter` with a pattern, of which `val` is made -/
  | setPattern (logger : L) (val : F) (isError : Bool)
  | assign (logger : L)
  | unlock (logger : L)
  | setOwn (appender : A) (val : Option F)

variable {L A F : Type} [DecidableEq L] [DecidableEq A]

namespace Logger

/-- The appenders whose formatter is about to be assigned. -/
def due (logger : Logger A F) : List A :=
  match logger.work with
  | some (.adding appender true) => [appender]
  | some (.setting rest) => rest
  | _ => []

/-- With the appender that is about to be attached. -/
def attached (logger : Logger A F) : List A :=
  logger.appenders ++
    match logger.work with
    | some (.adding appender _) => [appender]
    | some (.setting rest) => rest
    | none => []

end Logger

namespace State

variable (s : State L A F)

def setLogger (l : L) (logger : Logger A F) : State L A F :=
  { s with logger := Function.update s.logger l logger }

/-- `appender->m_formatter = m_formatter` -/
def inherit (l : L) (a : A) : State L A F :=
  { s with
    appender := Function.update s.appender a
      { s.appender a with formatter := (s.logger l).formatter } }

def setFormatter (l : L) (val : Option F) : State L A F :=
  s.setLogger l { s.logger l with
    formatter := val
    work := some (.setting (s.logger l).appenders) }

def step : Action L A F → Option (State L A F)
  | .addAppender l a =>
      match (s.logger l).work with
      | none => some (s.setLogger l { s.logger l with
          work := some (.adding a (s.appender a).formatter.isNone) })
      | some _ => none
  | .copy l =>
      match (s.logger l).work with
      | some (.adding a true) => some ((s.inherit l a).setLogger l
          { s.logger l with work := some (.adding a false) })
      | _ => none
  | .push_back l =>
      match (s.logger l).work with
      | some (.adding a false) => some (s.setLogger l { s.logger l with
          appenders := (s.logger l).appenders ++ [a]
          work := none })
      | _ => none
  | .delAppender l a =>
      match (s.logger l).work with
      | none => some (s.setLogger l { s.logger l with
          appenders := (s.logger l).appenders.erase a })
      | some _ => none
  | .clearAppenders l =>
      match (s.logger l).work with
      | none => some (s.setLogger l { s.logger l with appenders := [] })
      | some _ => none
  | .setFormatter l val =>
      match (s.logger l).work with
      | none => some (s.setFormatter l val)
      | some _ => none
  | .setPattern l val isError =>
      match (s.logger l).work, isError with
      | _, true => some s
      | none, false => some (s.setFormatter l (some val))
      | some _, false => none
  | .assign l =>
      match (s.logger l).work with
      | some (.setting (a :: rest)) =>
          let next := if (s.appender a).hasFormatter then s else s.inherit l a
          some (next.setLogger l
            { s.logger l with work := some (.setting rest) })
      | _ => none
  | .unlock l =>
      match (s.logger l).work with
      | some (.setting []) => some (s.setLogger l { s.logger l with work := none })
      | _ => none
  | .setOwn a val => some { s with
      appender := Function.update s.appender a ⟨val, val.isSome⟩
      own := Function.update s.own a val }

/-- As constructed: a logger has a formatter, an appender has none. -/
structure Initial (s : State L A F) : Prop where
  logger : ∀ l, ∃ formatter, s.logger l = ⟨some formatter, [], none⟩
  appender : ∀ a, s.appender a = {}
  own : ∀ a, s.own a = none

/-- An appender is not added to a second logger. -/
def Single (s : State L A F) : Action L A F → Prop
  | .addAppender l a => ∀ other, a ∈ (s.logger other).attached → other = l
  | _ => True

/-- Every appender that a logger logs through has its own formatter or the one of
the logger, and it has one. -/
def Follows (s : State L A F) : Prop :=
  ∀ l, (s.logger l).work = none → ∀ a ∈ (s.logger l).appenders,
    (s.appender a).formatter ≠ none ∧
      (s.appender a).formatter =
        if (s.appender a).hasFormatter then s.own a else (s.logger l).formatter

/-- An appender without its own formatter comes with none or with the logger's, to
a logger that has one; a logger loses its formatter only if no appender needs it;
and `LogAppender::setFormatter` neither takes a formatter from an appender that is
attached, unless a new one is about to be assigned, nor sets one that `addAppender`
is about to overwrite. -/
def Keeps (s : State L A F) : Action L A F → Prop
  | .addAppender l a => (s.appender a).hasFormatter = true ∨
      (s.logger l).formatter ≠ none ∧
        ((s.appender a).formatter = none ∨
          (s.appender a).formatter = (s.logger l).formatter)
  | .setFormatter l none =>
      ∀ a ∈ (s.logger l).appenders, (s.appender a).hasFormatter = true
  | .setOwn a none => ∀ l, a ∈ (s.logger l).attached →
      a ∈ (s.logger l).due ∧ (s.logger l).formatter ≠ none
  | .setOwn a (some val) => ∀ l, (s.logger l).work = some (.adding a true) →
      (s.logger l).formatter = some val
  | _ => True

def Allowed (s : State L A F) (action : Action L A F) : Prop :=
  s.Single action ∧ s.Keeps action

section Decidable

variable [Fintype L] [DecidableEq F]

instance (s : State L A F) : (action : Action L A F) → Decidable (s.Single action)
  | .addAppender _ _ => inferInstanceAs (Decidable (∀ _, _ → _))
  | .copy _ | .push_back _ | .delAppender _ _ | .clearAppenders _
  | .setFormatter _ _ | .setPattern _ _ _ | .assign _ | .unlock _ | .setOwn _ _ =>
      inferInstanceAs (Decidable True)

instance (s : State L A F) : (action : Action L A F) → Decidable (s.Keeps action)
  | .addAppender _ _ => inferInstanceAs (Decidable (_ ∨ _ ∧ (_ ∨ _)))
  | .setFormatter _ none => inferInstanceAs (Decidable (∀ a ∈ _, _))
  | .setOwn _ none => inferInstanceAs (Decidable (∀ _, _ → _))
  | .setOwn _ (some _) => inferInstanceAs (Decidable (∀ _, _ → _))
  | .copy _ | .push_back _ | .delAppender _ _ | .clearAppenders _
  | .setFormatter _ (some _) | .setPattern _ _ _ | .assign _ | .unlock _ =>
      inferInstanceAs (Decidable True)

instance (s : State L A F) (action : Action L A F) :
    Decidable (s.Allowed action) :=
  inferInstanceAs (Decidable (_ ∧ _))

end Decidable

/-- What holds of a logger and its appenders. -/
structure Supplied (s : State L A F) (logger : Logger A F) : Prop where
  copies : ∀ a, logger.work = some (.adding a true) →
    logger.formatter ≠ none ∧
      ((s.appender a).hasFormatter = true → s.own a = logger.formatter)
  attached : ∀ a ∈ logger.attached, (s.appender a).hasFormatter = false →
    logger.formatter ≠ none ∧
      (a ∈ logger.due ∨ (s.appender a).formatter = logger.formatter)

structure Inv (s : State L A F) : Prop where
  flag : ∀ a, (s.appender a).hasFormatter = (s.own a).isSome
  own : ∀ a, (s.appender a).hasFormatter = true →
    (s.appender a).formatter = s.own a
  supplied : ∀ l, s.Supplied (s.logger l)
  single : ∀ l other a, a ∈ (s.logger l).attached →
    a ∈ (s.logger other).attached → other = l

variable {s}

omit [DecidableEq L] [DecidableEq A] in
theorem Inv.follows (inv : Inv s) : Follows s := by
  intro l free a member
  have attached : a ∈ (s.logger l).attached := List.mem_append_left _ member
  have none_due : a ∉ (s.logger l).due := by simp [Logger.due, free]
  cases flag : (s.appender a).hasFormatter with
  | true =>
      have own := inv.own a flag
      have given := inv.flag a
      rw [flag] at given
      refine ⟨?_, own⟩
      rw [own]
      exact Option.isSome_iff_ne_none.mp given.symm
  | false =>
      obtain ⟨given, rest⟩ := (inv.supplied l).attached a attached flag
      have same := rest.resolve_left none_due
      exact ⟨same ▸ given, same⟩

omit [DecidableEq L] [DecidableEq A] in
theorem Inv.initial (initial : Initial s) : Inv s where
  flag a := by rw [initial.appender, initial.own]; rfl
  own a flag := by rw [initial.appender] at flag; cases flag
  supplied l := by
    obtain ⟨formatter, logger⟩ := initial.logger l
    rw [logger]
    constructor
    · intro a adding
      cases adding
    · intro a member
      cases member
  single l other a member := by
    obtain ⟨formatter, logger⟩ := initial.logger l
    rw [logger] at member
    cases member

omit [DecidableEq A] in
theorem Inv.setLogger (inv : Inv s) {l : L} {logger : Logger A F}
    (supplied : s.Supplied logger)
    (single : ∀ a ∈ logger.attached, ∀ other,
      a ∈ (s.logger other).attached → other = l) :
    Inv (s.setLogger l logger) where
  flag := inv.flag
  own := inv.own
  supplied l' := by
    by_cases same : l' = l
    · subst same
      simpa [State.setLogger] using ⟨supplied.copies, supplied.attached⟩
    · have kept := inv.supplied l'
      simpa [State.setLogger, same] using ⟨kept.copies, kept.attached⟩
  single l' other a here there := by
    by_cases same : l' = l <;> by_cases moved : other = l
    · rw [same, moved]
    · subst same
      simp [State.setLogger, moved] at here there
      exact single a here other there
    · subst moved
      simp [State.setLogger, same] at here there
      exact (single a there l' here).symm
    · simp [State.setLogger, same, moved] at here there
      exact inv.single l' other a here there

omit [DecidableEq L] in
@[simp] theorem inherit_logger (l : L) (a : A) : (s.inherit l a).logger = s.logger :=
  rfl

omit [DecidableEq L] in
@[simp] theorem inherit_hasFormatter (l : L) (a b : A) :
    ((s.inherit l a).appender b).hasFormatter = (s.appender b).hasFormatter := by
  by_cases same : b = a
  · subst same
    simp [inherit]
  · simp [inherit, same]

omit [DecidableEq L] in
@[simp] theorem inherit_formatter (l : L) (a : A) :
    ((s.inherit l a).appender a).formatter = (s.logger l).formatter := by
  simp [inherit]

omit [DecidableEq L] in
theorem inherit_formatter_of_ne (l : L) {a b : A} (other : b ≠ a) :
    ((s.inherit l a).appender b).formatter = (s.appender b).formatter := by
  simp [inherit, other]

omit [DecidableEq L] in
/-- A formatter is assigned to an appender of a logger that has one, and the
appender has not got its own. -/
theorem Inv.inherit (inv : Inv s) {l : L} {a : A}
    (attached : a ∈ (s.logger l).attached)
    (given : (s.logger l).formatter ≠ none)
    (own : (s.appender a).hasFormatter = true → s.own a = (s.logger l).formatter) :
    Inv (s.inherit l a) where
  flag b := by
    rw [inherit_hasFormatter]
    exact inv.flag b
  own b flag := by
    rw [inherit_hasFormatter] at flag
    by_cases same : b = a
    · subst same
      rw [inherit_formatter]
      exact (own flag).symm
    · rw [inherit_formatter_of_ne l same]
      exact inv.own b flag
  supplied l' := by
    obtain ⟨copies, supplied⟩ := inv.supplied l'
    constructor
    · intro b adding
      rw [inherit_hasFormatter]
      exact copies b adding
    · intro b member flag
      rw [inherit_hasFormatter] at flag
      by_cases same : b = a
      · subst same
        cases inv.single l l' b attached member
        exact ⟨given, .inr (inherit_formatter l b)⟩
      · rw [inherit_formatter_of_ne l same]
        exact supplied b member flag
  single := inv.single

omit [DecidableEq L] in
theorem Inv.setOwn (inv : Inv s) {a : A} {val : Option F}
    (keeps : s.Keeps (.setOwn a val)) :
    Inv { s with
      appender := Function.update s.appender a ⟨val, val.isSome⟩
      own := Function.update s.own a val } where
  flag b := by
    by_cases same : b = a
    · subst same
      simp
    · simpa [same] using inv.flag b
  own b flag := by
    by_cases same : b = a
    · subst same
      simp
    · simp [same] at flag ⊢
      exact inv.own b flag
  supplied l := by
    obtain ⟨copies, supplied⟩ := inv.supplied l
    constructor
    · intro b adding
      have before := copies b adding
      by_cases same : b = a
      · subst same
        refine ⟨before.1, ?_⟩
        simp
        intro given
        obtain ⟨val, rfl⟩ := Option.isSome_iff_exists.mp given
        exact (keeps l adding).symm
      · simpa [same] using before
    · intro b member flag
      by_cases same : b = a
      · subst same
        simp at flag
        subst flag
        obtain ⟨due, given⟩ := keeps l member
        exact ⟨given, .inl due⟩
      · simp [same] at flag ⊢
        exact supplied b member flag
  single := inv.single

omit [DecidableEq L] [DecidableEq A] in
theorem Supplied.free {l : L} (supplied : s.Supplied (s.logger l))
    (free : (s.logger l).work = none) {a : A}
    (member : a ∈ (s.logger l).appenders)
    (flag : (s.appender a).hasFormatter = false) :
    (s.logger l).formatter ≠ none ∧
      (s.appender a).formatter = (s.logger l).formatter := by
  obtain ⟨given, rest⟩ :=
    supplied.attached a (List.mem_append_left _ member) flag
  exact ⟨given, rest.resolve_left (by simp [Logger.due, free])⟩

omit [DecidableEq A] in
theorem Inv.setFormatter (inv : Inv s) {l : L} {val : Option F}
    (keeps : val = none →
      ∀ a ∈ (s.logger l).appenders, (s.appender a).hasFormatter = true) :
    Inv (s.setFormatter l val) := by
  have same : ∀ a ∈ (s.logger l).appenders ++ (s.logger l).appenders,
      a ∈ (s.logger l).appenders := by simp
  apply inv.setLogger
  · constructor
    · intro a adding
      cases adding
    · intro a member flag
      have attached := same a member
      refine ⟨?_, .inl attached⟩
      intro taken
      rw [keeps taken a attached] at flag
      cases flag
  · intro a member other there
    exact inv.single l other a (List.mem_append_left _ (same a member)) there

omit [DecidableEq A] in
theorem Inv.addAppender (inv : Inv s) {l : L} {a : A}
    (free : (s.logger l).work = none)
    (single : s.Single (.addAppender l a)) (keeps : s.Keeps (.addAppender l a)) :
    Inv (s.setLogger l { s.logger l with
      work := some (.adding a (s.appender a).formatter.isNone) }) := by
  have kept := inv.supplied l
  apply inv.setLogger
  · constructor
    · intro b adding
      obtain ⟨rfl, missing⟩ : a = b ∧ (s.appender a).formatter.isNone = true := by
        simpa using adding
      have none_given := Option.isNone_iff_eq_none.mp missing
      have no_flag : (s.appender a).hasFormatter ≠ true := by
        intro flag
        have given := inv.flag a
        rw [flag, ← inv.own a flag, none_given] at given
        cases given
      exact ⟨(keeps.resolve_left no_flag).1, fun flag => absurd flag no_flag⟩
    · intro b member flag
      obtain before | rfl := List.mem_append.mp member |>.imp_right List.mem_singleton.mp
      · obtain ⟨given, same⟩ := kept.free free before flag
        exact ⟨given, .inr same⟩
      · obtain ⟨given, origin⟩ := keeps.resolve_left (by simp [flag])
        refine ⟨given, ?_⟩
        obtain missing | same := origin
        · exact .inl (by simp [Logger.due, missing])
        · exact .inr same
  · intro b member other there
    obtain before | rfl := List.mem_append.mp member |>.imp_right List.mem_singleton.mp
    · exact inv.single l other b (List.mem_append_left _ before) there
    · exact single other there

/-- A section at the end of which fewer appenders are attached, and nothing is
left to be assigned but to those that still wait for it. -/
theorem Inv.shrink (inv : Inv s) {l : L} {logger : Logger A F}
    (formatter : logger.formatter = (s.logger l).formatter)
    (attached : logger.attached ⊆ (s.logger l).attached)
    (copies : ∀ a, logger.work ≠ some (.adding a true))
    (assigned : ∀ a ∈ (s.logger l).due, a ∉ logger.due →
      (s.appender a).hasFormatter = false →
        (s.appender a).formatter = (s.logger l).formatter) :
    Inv (s.setLogger l logger) := by
  apply inv.setLogger
  · constructor
    · intro a adding
      exact absurd adding (copies a)
    · intro a member flag
      obtain ⟨given, rest⟩ := (inv.supplied l).attached a (attached member) flag
      rw [formatter]
      refine ⟨given, ?_⟩
      by_cases waits : a ∈ logger.due
      · exact .inl waits
      · right
        exact rest.elim (fun due => assigned a due waits flag) id
  · intro a member other there
    exact inv.single l other a (attached member) there

/-- One round of the loop of `setFormatter`. -/
theorem Inv.assign (inv : Inv s) {l : L} {a : A} {rest : List A}
    (setting : (s.logger l).work = some (.setting (a :: rest))) :
    Inv ((if (s.appender a).hasFormatter then s else s.inherit l a).setLogger l
      { s.logger l with work := some (.setting rest) }) := by
  have first : a ∈ (s.logger l).attached := by
    simp [Logger.attached, setting]
  have fewer : (s.logger l).appenders ++ rest ⊆ (s.logger l).attached := by
    intro b member
    obtain here | later := List.mem_append.mp member
    · simp [Logger.attached, here]
    · simp [Logger.attached, setting, later]
  have passed : ∀ b ∈ (s.logger l).due, b ∉ rest → b = a := by
    intro b due later
    simp only [Logger.due, setting] at due
    exact (List.mem_cons.mp due).resolve_right later
  cases flag : (s.appender a).hasFormatter with
  | true =>
      rw [if_pos rfl]
      apply inv.shrink
      · rfl
      · exact fewer
      · simp
      · intro b due later none_own
        rw [passed b due later, flag] at none_own
        cases none_own
  | false =>
      rw [if_neg Bool.false_ne_true]
      have given := ((inv.supplied l).attached a first flag).1
      have assigned := inv.inherit first given (by simp [flag])
      apply assigned.shrink
      · rfl
      · exact fewer
      · simp
      · intro b due later _
        rw [passed b due later]
        exact inherit_formatter l a

theorem Inv.step (inv : Inv s) {action : Action L A F} {next : State L A F}
    (allowed : s.Allowed action) (taken : s.step action = some next) :
    Inv next := by
  obtain ⟨single, keeps⟩ := allowed
  cases action with
  | addAppender l a =>
      simp only [State.step] at taken
      split at taken
      · rename_i free
        cases taken
        exact inv.addAppender free single keeps
      · cases taken
  | copy l =>
      simp only [State.step] at taken
      split at taken
      · rename_i a adding
        cases taken
        obtain ⟨given, own⟩ := (inv.supplied l).copies a adding
        have attached : a ∈ (s.logger l).attached := by
          simp [Logger.attached, adding]
        apply (inv.inherit attached given own).shrink
        · rfl
        · simp [Logger.attached, adding]
        · simp
        · intro b due _ _
          obtain rfl : b = a := by simpa [Logger.due, adding] using due
          exact inherit_formatter l b
      · cases taken
  | push_back l =>
      simp only [State.step] at taken
      split at taken
      · rename_i a adding
        cases taken
        apply inv.shrink
        · rfl
        · simp [Logger.attached, adding]
        · simp
        · simp [Logger.due, adding]
      · cases taken
  | delAppender l a =>
      simp only [State.step] at taken
      split at taken
      · rename_i free
        cases taken
        apply inv.shrink
        · rfl
        · simpa [Logger.attached, free] using List.erase_subset
        · simp [free]
        · simp [Logger.due, free]
      · cases taken
  | clearAppenders l =>
      simp only [State.step] at taken
      split at taken
      · rename_i free
        cases taken
        apply inv.shrink
        · rfl
        · simp [Logger.attached, free]
        · simp [free]
        · simp [Logger.due, free]
      · cases taken
  | setFormatter l val =>
      simp only [State.step] at taken
      split at taken
      · cases taken
        apply inv.setFormatter
        rintro rfl
        exact keeps
      · cases taken
  | setPattern l val isError =>
      simp only [State.step] at taken
      split at taken
      · cases taken
        exact inv
      · cases taken
        exact inv.setFormatter nofun
      · cases taken
  | assign l =>
      simp only [State.step] at taken
      split at taken
      · rename_i a rest setting
        cases taken
        exact inv.assign setting
      · cases taken
  | unlock l =>
      simp only [State.step] at taken
      split at taken
      · rename_i setting
        cases taken
        apply inv.shrink
        · rfl
        · simp [Logger.attached, setting]
        · simp
        · simp [Logger.due, setting]
      · cases taken
  | setOwn a val =>
      cases taken
      exact inv.setOwn keeps

theorem appenders_follow (reached : Reach Initial (StepWhen step Allowed) s) :
    Follows s :=
  (reached.invariant (fun _ => Inv.initial)
    fun _ _ _ inv taken => inv.step taken.1 taken.2).follows

/-- Two loggers with formatters of their own and an appender. -/
def two : State Bool Unit Nat where
  logger l := ⟨some l.toNat, [], none⟩
  appender _ := {}
  own _ := none

theorem two_initial : Initial two := ⟨fun _ => ⟨_, rfl⟩, fun _ => rfl, fun _ => rfl⟩

def attach (l : Bool) : List (Action Bool Unit Nat) :=
  [.addAppender l (), .copy l, .push_back l]

/-- The appender takes over a new formatter of its logger. -/
theorem appenders_follow_changed :
    ∃ s, exec step two (attach false ++
        [.setFormatter false (some 7), .assign false, .unlock false]) = some s ∧
      (s.appender ()).formatter = some 7 ∧ Follows s := by
  obtain ⟨s, ran, all, formatter⟩ : ∃ s,
      exec (guarded step Allowed) two (attach false ++
        [.setFormatter false (some 7), .assign false, .unlock false]) = some s ∧
      exec step two (attach false ++
        [.setFormatter false (some 7), .assign false, .unlock false]) = some s ∧
      (s.appender ()).formatter = some 7 := ⟨_, rfl, rfl, rfl⟩
  exact ⟨s, all, formatter,
    appenders_follow (reach_guarded (.start _ two_initial) ran)⟩

/-- An attached appender whose own formatter is cleared has none; one that moves to
another logger stays with the formatter of the first. -/
theorem appenders_follow_not :
    (∃ s : State Bool Unit Nat, Reach Initial (StepWhen step Single) s ∧
      (s.logger false).appenders = [()] ∧ s.appender () = ⟨none, false⟩ ∧
      ¬ Follows s) ∧
    ∃ s : State Bool Unit Nat, Reach Initial (StepWhen step Single) s ∧
      (s.logger true).appenders = [()] ∧ s.appender () = ⟨some 0, false⟩ ∧
      (s.logger true).formatter = some 1 ∧ ¬ Follows s := by
  constructor
  · obtain ⟨s, ran, free, attached, appender⟩ : ∃ s,
        exec (guarded step Single) two (attach false ++ [.setOwn () none]) =
          some s ∧
        (s.logger false).work = none ∧ (s.logger false).appenders = [()] ∧
        s.appender () = ⟨none, false⟩ := ⟨_, rfl, rfl, rfl, rfl⟩
    refine ⟨s, reach_guarded (.start _ two_initial) ran, attached, appender, ?_⟩
    intro follows
    have given := (follows false free () (by simp [attached])).1
    rw [appender] at given
    exact given rfl
  · obtain ⟨s, ran, free, attached, appender, formatter⟩ : ∃ s,
        exec (guarded step Single) two (attach false ++
          [.delAppender false (), .addAppender true (), .push_back true]) =
            some s ∧
        (s.logger true).work = none ∧ (s.logger true).appenders = [()] ∧
        s.appender () = ⟨some 0, false⟩ ∧ (s.logger true).formatter = some 1 :=
      ⟨_, rfl, rfl, rfl, rfl, rfl⟩
    refine ⟨s, reach_guarded (.start _ two_initial) ran, attached, appender,
      formatter, ?_⟩
    intro follows
    have same := (follows true free () (by simp [attached])).2
    rw [appender, formatter] at same
    cases same

end State

end Sylar.Attach
