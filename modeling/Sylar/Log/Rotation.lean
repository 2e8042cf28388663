import Mathlib.Data.List.Infix
import Mathlib.Logic.Function.Basic
import Sylar.Data.Text
import Sylar.Log.Define
import Sylar.Logic.Reach

namespace Sylar

open Data Logic

/-! `FileLogAppender::log` on a file that is renamed or removed between its calls,
and whose opening and writing may fail. The files are numbered in the order they
were made in. What `reopen` and `OpenForWrite` return is not used. -/

instance : LE LogLevel :=
  ⟨fun level other => level.ctorIdx ≤ other.ctorIdx⟩

instance (level other : LogLevel) : Decidable (level ≤ other) :=
  inferInstanceAs (Decidable (level.ctorIdx ≤ other.ctorIdx))

namespace Rotation

/-- An accepted event, with its time. -/
structure Event where
  time : UInt64
  text : Text

/-- From one opening of the stream to the next. -/
structure Phase where
  /-- the file that was opened, if one could be -/
  file : Option Nat
  since : UInt64
  /-- the events given to the stream while it had not failed -/
  put : List Event := []
  /-- and those it did not take -/
  missed : List Event := []
  /-- what has been written to the file -/
  stored : Text := []
  /-- whether a write has failed -/
  failed : Bool := false

namespace Phase

variable (phase : Phase)

def texts : Text :=
  phase.put.flatMap Event.text

def events : List Event :=
  phase.put ++ phase.missed

/-- Where the stream holds back `rest`: nothing is missing unless a write has failed,
each event goes to the file of the phase within three seconds of its opening, and
none is missed but where no file is open or a write has failed. -/
structure Sound (seen : List (UInt64 × Nat)) (rest : Text) : Prop where
  whole : phase.failed = false → phase.stored ++ rest = phase.texts
  cut : phase.failed = true →
    phase.stored <+: phase.texts ∧ phase.stored ≠ phase.texts
  timely : ∀ event ∈ phase.put, ∃ file, phase.file = some file ∧
    (phase.since, file) ∈ seen ∧ event.time.toNat < phase.since.toNat + 3
  missed : phase.missed ≠ [] → phase.failed = true ∨ phase.file = none

variable {phase}

theorem Sound.mono {seen later : List (UInt64 × Nat)} {rest : Text}
    (sound : phase.Sound seen rest) (grown : seen ⊆ later) : phase.Sound later rest where
  whole := sound.whole
  cut := sound.cut
  timely event member := by
    obtain ⟨file, opened, before, early⟩ := sound.timely event member
    exact ⟨file, opened, grown before, early⟩
  missed := sound.missed

theorem Sound.drained {seen : List (UInt64 × Nat)} {rest : Text}
    (sound : phase.Sound seen rest) (sofar : phase.failed = false) (out room : Nat) :
    ({ phase with
      stored := phase.stored ++ (rest.take out).take room
      failed := phase.failed || !decide ((rest.take out).length ≤ room) } : Phase).Sound
        seen (if decide ((rest.take out).length ≤ room) then rest.drop out else []) := by
  have whole := sound.whole sofar
  by_cases fits : (rest.take out).length ≤ room
  · simp only [fits, decide_true, if_true, Bool.not_true, Bool.or_false]
    refine ⟨fun _ => ?_, ?_, sound.timely, sound.missed⟩
    · rw [List.take_of_length_le fits, List.append_assoc, List.take_append_drop]
      exact whole
    · intro failed
      cases sofar.symm.trans failed
  · simp only [fits, decide_false, Bool.not_false, Bool.or_true]
    refine ⟨nofun, fun _ => ?_, sound.timely, fun _ => .inl rfl⟩
    have cut : (rest.take out).take room ++ (rest.take out).drop room ++ rest.drop out =
        rest := by
      rw [List.take_append_drop, List.take_append_drop]
    constructor
    · exact ⟨(rest.take out).drop room ++ rest.drop out, by
        change phase.stored ++ _ ++ _ = phase.texts
        rw [← whole, List.append_assoc, ← List.append_assoc ((rest.take out).take room),
          cut]⟩
    · intro same
      change phase.stored ++ _ = phase.texts at same
      rw [← whole, List.append_cancel_left_eq] at same
      have lengths := congrArg List.length same
      rw [List.length_take] at lengths fits
      rw [List.length_take] at lengths
      omega

/-- Once nothing is held back, it is all there exactly when no write has failed. -/
theorem Sound.stored {seen : List (UInt64 × Nat)} (sound : phase.Sound seen []) :
    phase.stored <+: phase.texts ∧
      (phase.stored = phase.texts ↔ phase.failed = false) := by
  cases failed : phase.failed with
  | false =>
      have whole := sound.whole failed
      rw [List.append_nil] at whole
      exact ⟨whole ▸ List.prefix_rfl, by simp [whole]⟩
  | true =>
      obtain ⟨before, less⟩ := sound.cut failed
      exact ⟨before, by simp [less]⟩

end Phase

structure State where
  level : LogLevel
  lastTime : UInt64
  /-- the file that `m_filestream` has open -/
  file : Option Nat
  /-- whether `m_filestream` has not failed -/
  good : Bool
  /-- what it holds back -/
  buffer : Text
  /-- the file that has the name `m_filename` -/
  named : Option Nat
  made : Nat
  /-- what the appender has written to each file -/
  content : Nat → Text
  /-- the phases that are over, in order -/
  ended : List Phase
  phase : Phase
  /-- the events of the level or above -/
  said : List Event
  /-- which file had the name when one was logged -/
  seen : List (UInt64 × Nat)

inductive Action
  /-- Whether a file of the name can be opened or made, how many characters of the
  buffer can be written when the stream is closed, how many it writes out with this
  event, and how many of these can be written. -/
  | log (level : LogLevel) (event : Event) (permitted : Bool) (closing out room : Nat)
  | setLevel (level : LogLevel)
  /-- the file loses the name -/
  | remove
  /-- another file gets it -/
  | rename

namespace State

variable (s : State)

/-- All phases, the present one last. -/
def phases : List Phase :=
  s.ended ++ [s.phase]

def writtenTo (file : Nat) : Text :=
  (s.phases.filter fun phase => phase.file == some file).flatMap Phase.stored

/-- The stream writes characters out of its buffer; if they are not all written it
fails. -/
def drain (file out room : Nat) : State :=
  let written := (s.buffer.take out).take room
  let fits := decide ((s.buffer.take out).length ≤ room)
  { s with
    good := fits
    buffer := if fits then s.buffer.drop out else []
    content := Function.update s.content file (s.content file ++ written)
    phase := { s.phase with
      stored := s.phase.stored ++ written
      failed := s.phase.failed || !fits } }

/-- `close` writes the buffer out, and has closed the file even where that fails; of
a stream without a file it fails. -/
def close (room : Nat) : State :=
  match s.file with
  | some file => { s.drain file s.buffer.length room with file := none }
  | none => { s with good := false }

def begin (file : Option Nat) (time : UInt64) : State :=
  { s with
    file := file
    good := file.isSome
    buffer := []
    ended := s.phases
    phase := { file := file, since := time } }

/-- `open` of a stream that has a file fails; a success clears the stream. -/
def openForWrite (time : UInt64) (permitted : Bool) : State :=
  match s.file with
  | some _ => { s with good := false }
  | none =>
      if permitted then
        match s.named with
        | some file => s.begin (some file) time
        | none =>
            { s.begin (some s.made) time with named := some s.made, made := s.made + 1 }
      else s.begin none time

/-- `if (m_filestream)` asks whether it has not failed. -/
def reopen (time : UInt64) (permitted : Bool) (closing : Nat) : State :=
  (if s.good then s.close closing else s).openForWrite time permitted

def take (event : Event) : State :=
  { s with
    buffer := s.buffer ++ event.text
    phase := { s.phase with put := s.phase.put ++ [event] }
    said := s.said ++ [event] }

def miss (event : Event) : State :=
  { s with
    good := false
    phase := { s.phase with missed := s.phase.missed ++ [event] }
    said := s.said ++ [event] }

/-- `m_formatter->format` into the stream. -/
def write (event : Event) (out room : Nat) : State :=
  match s.good, s.file with
  | true, some file => (s.take event).drain file out room
  | _, _ => s.miss event

/-- The file of the name is noted. -/
def note (time : UInt64) : State :=
  { s with seen := s.seen ++ (s.named.map fun file => (time, file)).toList }

/-- The file is opened again after three seconds. -/
def due (time : UInt64) (permitted : Bool) (closing : Nat) : State :=
  if s.lastTime + 3 ≤ time then
    { s.reopen time permitted closing with lastTime := time }
  else s

def log (level : LogLevel) (event : Event) (permitted : Bool)
    (closing out room : Nat) : State :=
  if s.level ≤ level then
    ((s.due event.time permitted closing).note event.time).write event out room
  else s

def step : Action → Option State
  | .log level event permitted closing out room =>
      some (s.log level event permitted closing out room)
  | .setLevel level => some { s with level := level }
  | .remove => some { s with named := none }
  | .rename => some { s with named := some s.made, made := s.made + 1 }

/-- An appender before its constructor calls `reopen`, where a file of the name may
be there already. -/
def blank (level : LogLevel) (named : Bool) : State where
  level := level
  lastTime := 0
  file := none
  good := true
  buffer := []
  named := if named then some 0 else none
  made := if named then 1 else 0
  content _ := []
  ended := []
  phase := { file := none, since := 0 }
  said := []
  seen := []

def constructed (level : LogLevel) (named permitted : Bool) : State :=
  ((blank level named).reopen 0 permitted 0).note 0

def Initial (s : State) : Prop :=
  ∃ level named permitted, s = constructed level named permitted

/-- The stream has the file of the phase, and has failed where that could not be
opened or a write to it has failed. -/
structure Inv (s : State) : Prop where
  file : s.file = s.phase.file
  good : s.good = (s.file.isSome && !s.phase.failed)
  last : ∀ file, s.phase.file = some file → s.phase.failed = false →
    (s.phase.since, file) ∈ s.seen ∧ s.phase.since = s.lastTime
  ended : ∀ phase ∈ s.ended, phase.Sound s.seen []
  phase : s.phase.Sound s.seen s.buffer
  content : ∀ file, s.content file = s.writtenTo file
  said : s.said = s.phases.flatMap Phase.events

/-- The stream is about to be opened. -/
structure Closed (s : State) : Prop where
  file : s.file = none
  ended : ∀ phase ∈ s.phases, phase.Sound s.seen []
  content : ∀ file, s.content file = s.writtenTo file
  said : s.said = s.phases.flatMap Phase.events

variable {s} {time : UInt64} {permitted : Bool} {closing out room : Nat}

/-- As long as the file is not opened again. -/
theorem recent {lastTime : UInt64} (early : ¬lastTime + 3 ≤ time) :
    time.toNat < lastTime.toNat + 3 := by
  rw [UInt64.le_iff_toNat_le, UInt64.toNat_add] at early
  have small := Nat.mod_le (lastTime.toNat + UInt64.toNat 3) (2 ^ 64)
  change _ ≤ lastTime.toNat + 3 at small
  omega

theorem writtenTo_last (file : Nat) :
    s.writtenTo file =
      (s.ended.filter fun phase => phase.file == some file).flatMap Phase.stored ++
        if s.phase.file = some file then s.phase.stored else [] := by
  unfold writtenTo phases
  rw [List.filter_append, List.flatMap_append]
  split <;> simp [*]

/-- What a file gets is what its last phase gets. -/
theorem drain_content {file : Nat} (opened : s.phase.file = some file)
    (content : ∀ file, s.content file = s.writtenTo file) (other : Nat) :
    (s.drain file out room).content other = (s.drain file out room).writtenTo other := by
  have before := content other
  rw [writtenTo_last] at before ⊢
  change Function.update s.content file _ other = _ ++ if s.phase.file = some other then
    s.phase.stored ++ (s.buffer.take out).take room else []
  rw [Function.update_apply]
  split
  · rename_i same
    subst same
    rw [before, if_pos opened, if_pos opened, List.append_assoc]
    rfl
  · rename_i different
    have apart : s.phase.file ≠ some other := by
      rw [opened]
      exact fun same => different (Option.some.inj same).symm
    rw [before, if_neg apart, if_neg apart]
    rfl

theorem drain_events (file : Nat) :
    (s.drain file out room).phases.flatMap Phase.events =
      s.phases.flatMap Phase.events := by
  unfold phases
  rw [List.flatMap_append, List.flatMap_append]
  rfl

/-- A stream that has not failed is closed by `reopen`, as is one without a file. -/
theorem Inv.closed (inv : s.Inv) (sofar : s.phase.failed = false) (closing : Nat) :
    (if s.good then s.close closing else s).Closed := by
  have good := inv.good
  rw [sofar, Bool.not_false, Bool.and_true] at good
  cases opened : s.file with
  | none =>
      rw [opened] at good
      rw [good, if_neg (by simp)]
      refine ⟨opened, ?_, inv.content, inv.said⟩
      intro phase member
      rcases List.mem_append.mp member with before | this
      · exact inv.ended phase before
      · rw [List.mem_singleton.mp this]
        have nothing : s.phase.put = [] := by
          apply List.eq_nil_iff_forall_not_mem.mpr
          intro event put
          obtain ⟨file, some, -⟩ := inv.phase.timely event put
          cases (inv.file.symm.trans opened).symm.trans some
        refine ⟨fun _ => ?_, inv.phase.cut, inv.phase.timely, inv.phase.missed⟩
        have whole := inv.phase.whole sofar
        rw [Phase.texts, nothing, List.flatMap_nil, List.append_eq_nil_iff] at whole
        rw [Phase.texts, nothing, whole.1]
        rfl
  | some file =>
      rw [opened] at good
      rw [good, if_pos (by rfl), close, opened]
      have opened : s.phase.file = some file := inv.file.symm.trans opened
      refine ⟨rfl, ?_, fun other => drain_content opened inv.content other, ?_⟩
      · intro phase member
        rcases List.mem_append.mp member with before | this
        · exact inv.ended phase before
        · rw [List.mem_singleton.mp this]
          have drained := inv.phase.drained sofar s.buffer.length closing
          rw [List.drop_length, ite_self] at drained
          exact drained
      · exact inv.said.trans (drain_events file).symm

theorem Closed.opens (closed : s.Closed) (time : UInt64) (permitted : Bool) :
    ∃ file named made, s.openForWrite time permitted =
        { s.begin file time with named := named, made := made } ∧
      (file = none ∨ file = named) ∧ file.isSome = permitted := by
  unfold openForWrite
  rw [closed.file]
  cases permitted with
  | false => exact ⟨none, s.named, s.made, rfl, .inl rfl, rfl⟩
  | true =>
      simp only [if_true]
      cases named : s.named with
      | none => exact ⟨some s.made, some s.made, s.made + 1, rfl, .inr rfl, rfl⟩
      | some file =>
          have kept : s.begin (some file) time =
              { s.begin (some file) time with named := some file, made := s.made } := by
            rw [← named]
            rfl
          exact ⟨some file, some file, s.made, kept, .inr rfl, rfl⟩

theorem Closed.begun (closed : s.Closed) (time : UInt64) {file named : Option Nat}
    {made : Nat} (begins : file = none ∨ file = named) :
    (({ s.begin file time with
      named := named, made := made, lastTime := time } : State).note time).Inv where
  file := rfl
  good := by simp [note, begin]
  last opened some _ := by
    rcases begins with rfl | rfl
    · cases some
    · cases some
      exact ⟨List.mem_append_right _ (List.mem_singleton_self _), rfl⟩
  ended phase member :=
    (closed.ended phase member).mono (List.subset_append_left ..)
  phase := ⟨fun _ => rfl, nofun, nofun, fun some => absurd rfl some⟩
  content other := by
    rw [writtenTo_last]
    change s.content other = s.writtenTo other ++ if file = some other then [] else []
    rw [ite_self, List.append_nil, closed.content]
  said := by
    rw [phases, List.flatMap_append]
    exact closed.said.trans (List.append_nil _).symm

theorem Inv.noted (inv : s.Inv) (time : UInt64) : (s.note time).Inv where
  file := inv.file
  good := inv.good
  last file opened sofar := by
    obtain ⟨seen, since⟩ := inv.last file opened sofar
    exact ⟨List.mem_append_left _ seen, since⟩
  ended phase member := (inv.ended phase member).mono (List.subset_append_left ..)
  phase := inv.phase.mono (List.subset_append_left ..)
  content := inv.content
  said := inv.said

/-- A stream that has failed with a file open is not opened again. -/
theorem reopen_failed {file : Nat} (failed : s.good = false)
    (opened : s.file = some file) : s.reopen time permitted closing = s := by
  cases s
  cases failed
  cases opened
  rfl

theorem Inv.failed (inv : s.Inv) (failed : s.phase.failed = true) :
    s.good = false ∧ ∃ file, s.file = some file := by
  have good := inv.good
  rw [failed, Bool.not_true, Bool.and_false] at good
  refine ⟨good, ?_⟩
  cases opened : s.file with
  | some file => exact ⟨file, rfl⟩
  | none =>
      obtain ⟨before, less⟩ := inv.phase.cut failed
      have nothing : s.phase.put = [] := by
        apply List.eq_nil_iff_forall_not_mem.mpr
        intro event put
        obtain ⟨file, some, -⟩ := inv.phase.timely event put
        cases (inv.file.symm.trans opened).symm.trans some
      rw [Phase.texts, nothing] at before less
      exact absurd (List.prefix_nil.mp before) less

theorem Inv.due (inv : s.Inv) (time : UInt64) (permitted : Bool) (closing : Nat) :
    ((s.due time permitted closing).note time).Inv := by
  unfold State.due
  split
  · cases failed : s.phase.failed with
    | true =>
        obtain ⟨bad, file, opened⟩ := inv.failed failed
        rw [reopen_failed bad opened]
        apply Inv.noted
        constructor
        · exact inv.file
        · exact inv.good
        · intro _ _ sofar
          cases failed.symm.trans sofar
        · exact inv.ended
        · exact inv.phase
        · exact inv.content
        · exact inv.said
    | false =>
        have closed := inv.closed failed closing
        obtain ⟨file, named, made, opens, begins, -⟩ := closed.opens time permitted
        rw [reopen, opens]
        exact closed.begun time begins
  · exact inv.noted time

theorem due_recent (time : UInt64) (permitted : Bool) (closing : Nat) :
    time.toNat < (s.due time permitted closing).lastTime.toNat + 3 := by
  unfold State.due
  split
  · exact Nat.lt_add_of_pos_right (by decide)
  · exact recent ‹_›

theorem Inv.usable (inv : s.Inv) {file : Nat} (good : s.good = true)
    (opened : s.file = some file) :
    s.phase.file = some file ∧ s.phase.failed = false ∧ s.phase.missed = [] := by
  have opens : s.phase.file = some file := inv.file.symm.trans opened
  have sofar : s.phase.failed = false := by
    have taken := inv.good
    rw [good, opened] at taken
    simpa using taken
  refine ⟨opens, sofar, Decidable.byContradiction fun some => ?_⟩
  rcases inv.phase.missed some with failed | none
  · cases sofar.symm.trans failed
  · cases opens.symm.trans none

theorem Inv.useless (inv : s.Inv) (bad : ∀ file, s.good = true → s.file ≠ some file) :
    s.good = false ∧ (s.phase.failed = true ∨ s.phase.file = none) := by
  have good := inv.good
  rw [inv.file] at good bad
  cases opened : s.phase.file with
  | none =>
      rw [opened] at good
      exact ⟨good, .inr rfl⟩
  | some file =>
      rw [opened] at good bad
      have shut : s.good = false := Bool.eq_false_iff.mpr fun opens => bad file opens rfl
      rw [shut] at good
      exact ⟨shut, .inl (by simpa using good.symm)⟩

theorem said_snoc (said : s.said = s.phases.flatMap Phase.events) {phase : Phase}
    {event : Event} (more : phase.events = s.phase.events ++ [event]) :
    s.said ++ [event] = (s.ended ++ [phase]).flatMap Phase.events := by
  rw [said, phases, List.flatMap_append, List.flatMap_append, List.append_assoc,
    List.flatMap_singleton, List.flatMap_singleton, more]

/-- The event joins what the stream holds back. -/
theorem Inv.taken (inv : s.Inv) {event : Event} {file : Nat}
    (timely : event.time.toNat < s.lastTime.toNat + 3) (good : s.good = true)
    (opened : s.file = some file) : (s.take event).Inv := by
  obtain ⟨opens, sofar, missed⟩ := inv.usable good opened
  obtain ⟨seen, since⟩ := inv.last file opens sofar
  constructor
  · exact inv.file
  · exact inv.good
  · exact inv.last
  · exact inv.ended
  · refine ⟨fun _ => ?_, ?_, ?_, inv.phase.missed⟩
    · change s.phase.stored ++ (s.buffer ++ event.text) =
        (s.phase.put ++ [event]).flatMap Event.text
      rw [List.flatMap_append, List.flatMap_singleton, ← List.append_assoc,
        inv.phase.whole sofar]
      rfl
    · intro failed
      cases sofar.symm.trans failed
    · intro other member
      rcases List.mem_append.mp member with before | this
      · exact inv.phase.timely other before
      · rw [List.mem_singleton.mp this]
        exact ⟨file, opens, seen, since ▸ timely⟩
  · intro other
    rw [writtenTo_last]
    exact (inv.content other).trans (writtenTo_last other)
  · apply said_snoc inv.said
    change s.phase.put ++ [event] ++ s.phase.missed =
      s.phase.put ++ s.phase.missed ++ [event]
    rw [missed, List.append_nil, List.append_nil]

theorem Inv.drained (inv : s.Inv) {file : Nat} (good : s.good = true)
    (opened : s.file = some file) (out room : Nat) : (s.drain file out room).Inv := by
  obtain ⟨opens, sofar, -⟩ := inv.usable good opened
  constructor
  · exact inv.file
  · change decide _ = (s.file.isSome && !(s.phase.failed || !decide _))
    rw [opened, sofar]
    simp
  · intro other opened _
    exact inv.last other opened sofar
  · exact inv.ended
  · exact inv.phase.drained sofar out room
  · exact fun other => drain_content opens inv.content other
  · exact inv.said.trans (drain_events file).symm

theorem Inv.missed (inv : s.Inv) (event : Event)
    (bad : ∀ file, s.good = true → s.file ≠ some file) : (s.miss event).Inv := by
  obtain ⟨shut, why⟩ := inv.useless bad
  constructor
  · exact inv.file
  · exact shut.symm.trans inv.good
  · exact inv.last
  · exact inv.ended
  · exact ⟨inv.phase.whole, inv.phase.cut, inv.phase.timely, fun _ => why⟩
  · intro other
    rw [writtenTo_last]
    exact (inv.content other).trans (writtenTo_last other)
  · exact said_snoc inv.said (List.append_assoc ..).symm

theorem Inv.write (inv : s.Inv) (event : Event)
    (timely : event.time.toNat < s.lastTime.toNat + 3) (out room : Nat) :
    (s.write event out room).Inv := by
  unfold State.write
  split
  · rename_i file good opened
    exact (inv.taken timely good opened).drained good opened out room
  · rename_i bad
    exact inv.missed event fun file good opened => bad file good opened

theorem Inv.log (inv : s.Inv) (level : LogLevel) (event : Event) (permitted : Bool)
    (closing out room : Nat) : (s.log level event permitted closing out room).Inv := by
  unfold State.log
  split
  · exact (inv.due event.time permitted closing).write event
      (due_recent event.time permitted closing) out room
  · exact inv

theorem Inv.step (inv : s.Inv) {action : Action} {next : State}
    (taken : step s action = some next) : next.Inv := by
  cases action with
  | log level event permitted closing out room =>
      cases taken
      exact inv.log level event permitted closing out room
  | setLevel level =>
      cases taken
      exact { inv with }
  | remove =>
      cases taken
      exact { inv with }
  | rename =>
      cases taken
      exact { inv with }

theorem blank_closed (level : LogLevel) (named : Bool) (closing : Nat) :
    ((blank level named).close closing).Closed where
  file := rfl
  ended phase member := by
    rw [List.mem_singleton.mp member]
    exact ⟨fun _ => rfl, nofun, nofun, fun some => absurd rfl some⟩
  content _ := rfl
  said := rfl

theorem Initial.inv (initial : s.Initial) : s.Inv := by
  obtain ⟨level, present, permitted, rfl⟩ := initial
  have closed := blank_closed level present 0
  obtain ⟨file, named, made, opens, begins, -⟩ := closed.opens 0 permitted
  change ((((blank level _).close 0).openForWrite 0 permitted).note 0).Inv
  rw [opens]
  exact closed.begun 0 begins

/-- A stream that a write has failed on stays as it is. -/
theorem Inv.silent (inv : s.Inv) (failed : s.phase.failed = true) {action : Action}
    {next : State} (taken : State.step s action = some next) :
    next.phase.failed = true ∧ next.content = s.content := by
  obtain ⟨shut, file, opened⟩ := inv.failed failed
  cases action with
  | log level event permitted closing out room =>
      cases taken
      unfold State.log State.due
      rw [reopen_failed shut opened]
      split
      · cases s
        cases shut
        split <;> exact ⟨failed, rfl⟩
      · exact ⟨failed, rfl⟩
  | setLevel level =>
      cases taken
      exact ⟨failed, rfl⟩
  | remove =>
      cases taken
      exact ⟨failed, rfl⟩
  | rename =>
      cases taken
      exact ⟨failed, rfl⟩

theorem Inv.silenced (inv : s.Inv) (failed : s.phase.failed = true)
    {actions : List Action} {after : State}
    (ran : exec State.step s actions = some after) : after.content = s.content := by
  induction actions generalizing s with
  | nil =>
      cases ran
      rfl
  | cons action actions ih =>
      obtain ⟨next, taken, rest⟩ := Option.bind_eq_some_iff.mp ran
      obtain ⟨stays, same⟩ := inv.silent failed taken
      exact (ih (inv.step taken) stays rest).trans same

/-- Any other stream gets the file of the name, where that is permitted, with the
next event that is due. -/
theorem Inv.recovers (inv : s.Inv) (sofar : s.phase.failed = false) {level : LogLevel}
    {event : Event} (noted : s.level ≤ level) (late : s.lastTime + 3 ≤ event.time)
    (closing out room : Nat) :
    ∃ after, s.log level event true closing out room = after ∧
      after.phase.put = [event] ∧ after.phase.file.isSome ∧
      after.phase.file = after.named := by
  have closed := inv.closed sofar closing
  obtain ⟨file, named, made, opens, begins, opened⟩ := closed.opens event.time true
  obtain ⟨file, rfl⟩ := Option.isSome_iff_exists.mp opened
  have same : some file = named := begins.resolve_left nofun
  refine ⟨_, rfl, ?_⟩
  unfold State.log State.due
  rw [if_pos noted, if_pos late, reopen, opens]
  exact ⟨rfl, rfl, same⟩

/-- A file holds, in order, what the phases that opened it wrote to it. Each phase
takes its events within three seconds of its opening, when the file had the name,
and of what they say the phases that are over have written all exactly when no write
has failed, the last one at `close` included. Once the present phase has failed
nothing is written any more; else the stream recovers. -/
theorem rotated (reached : Reach Initial (StepOf State.step) s) :
    (∀ file, s.content file = s.writtenTo file) ∧
      s.said = s.phases.flatMap Phase.events ∧
      (∀ phase ∈ s.ended, phase.Sound s.seen [] ∧ phase.stored <+: phase.texts ∧
        (phase.stored = phase.texts ↔ phase.failed = false)) ∧
      s.phase.Sound s.seen s.buffer ∧
      (s.phase.failed = true → ∀ actions after, exec State.step s actions = some after →
        after.content = s.content) ∧
      (s.phase.failed = false → ∀ level event, s.level ≤ level →
        s.lastTime + 3 ≤ event.time → ∀ closing out room,
          ∃ after, s.log level event true closing out room = after ∧
            after.phase.put = [event] ∧ after.phase.file.isSome ∧
            after.phase.file = after.named) := by
  have inv : s.Inv := by
    apply reached.invariant
    · exact fun s initial => initial.inv
    · exact fun s action next inv taken => inv.step taken
  refine ⟨inv.content, inv.said, ?_, inv.phase, ?_, ?_⟩
  · intro phase member
    have sound := inv.ended phase member
    exact ⟨sound, sound.stored⟩
  · intro failed actions after ran
    exact inv.silenced failed ran
  · intro sofar level event noted late closing out room
    exact inv.recovers sofar noted late closing out room

section Witness

/-- What is held back is lost at a `close`, a file cannot be opened for a time, and
later there is no more room. -/
def day : List Action :=
  [.log .INFO ⟨100, ['a']⟩ true 9 1 9, .remove, .log .INFO ⟨102, ['b']⟩ true 9 0 9,
    .log .INFO ⟨103, ['c']⟩ true 0 1 9, .log .INFO ⟨106, ['d']⟩ false 9 1 9,
    .log .INFO ⟨110, ['e']⟩ true 9 1 9, .log .INFO ⟨111, ['f', 'g']⟩ true 9 2 1,
    .log .INFO ⟨200, ['h']⟩ true 9 1 9]

theorem rotated_day :
    ∃ s, exec State.step (constructed .DEBUG true true) day = some s ∧
      s.content 0 = ['a'] ∧ s.content 1 = ['c', 'e', 'f'] ∧
      (∀ actions after, exec State.step s actions = some after →
        after.content = s.content) := by
  refine ⟨_, rfl, ?_⟩
  have initial : Initial (constructed .DEBUG true true) := ⟨.DEBUG, true, true, rfl⟩
  have reached := reach_exec (.start _ initial)
    (rfl : exec State.step (constructed .DEBUG true true) day = some _)
  obtain ⟨content, -, -, -, silent, -⟩ := rotated reached
  exact ⟨(content 0).trans rfl, (content 1).trans rfl, silent rfl⟩

end Witness

end State

end Rotation

end Sylar
