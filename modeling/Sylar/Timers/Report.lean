import Sylar.Timers.Expiry

namespace Sylar.Timers

open Data Logic

/-! What `cancel`, `refresh` and `reset` answer, beside what they do. -/

inductive Operation
  | cancel
  | refresh
  | reset (ms : UInt64) (fromNow : Bool)

variable {T C : Type} [LinearOrder T]

namespace TimerManager

/-- The answer of a call for a timer, at a clock reading. -/
def perform (m : TimerManager T C) (it : T) (now : UInt64) :
    Operation → Option (Bool × TimerManager T C)
  | .cancel => m.cancel it
  | .refresh => some (m.refresh it now)
  | .reset ms fromNow =>
      some ((m.reset it ms fromNow now).1, (m.reset it ms fromNow now).2.2)

/-- The timer has left the set, without its callback. -/
structure Removed (m : TimerManager T C) (it : T) (after : TimerManager T C) :
    Prop where
  sorted : OrderedSet.Sorted (key after.timer) after.timers
  member : ∀ other, other ∈ after.timers ↔ other ∈ m.timers ∧ other ≠ it
  cleared : (after.timer it).cb = none
  others : ∀ other, other ≠ it → after.timer other = m.timer other

/-- The timer is in the set with this period and deadline. -/
structure Rearmed (m : TimerManager T C) (it : T) (ms next : UInt64)
    (after : TimerManager T C) : Prop where
  sorted : OrderedSet.Sorted (key after.timer) after.timers
  member : ∀ other, other ∈ after.timers ↔ other ∈ m.timers
  rearmed : after.timer it = { m.timer it with ms := ms, next := next }
  others : ∀ other, other ≠ it → after.timer other = m.timer other

def Done (m : TimerManager T C) (it : T) (now : UInt64) :
    Operation → TimerManager T C → Prop
  | .cancel => m.Removed it
  | .refresh => m.Rearmed it (m.timer it).ms (now + (m.timer it).ms)
  | .reset ms true => m.Rearmed it ms (now + ms)
  | .reset ms false =>
      m.Rearmed it ms ((m.timer it).next - (m.timer it).ms + ms)

/-- The call answers whether the timer was pending, and then has done what it is
for. -/
def Reports (m : TimerManager T C) (it : T) (now : UInt64)
    (operation : Operation) : Prop :=
  ∃ answer after, m.perform it now operation = some (answer, after) ∧
    (answer = true ↔ it ∈ m.timers) ∧
    (answer = true → m.Done it now operation after) ∧
    (answer = false → after = m)

/-- The answers that are wrong: every one of `refresh` for a pending timer, and
that of a `reset` that changes nothing for one that is not pending. -/
def Answers (m : TimerManager T C) (it : T) : Operation → Prop
  | .cancel => True
  | .refresh => it ∉ m.timers
  | .reset ms fromNow =>
      ms = (m.timer it).ms ∧ fromNow = false → it ∈ m.timers

variable {m : TimerManager T C} {it : T} {value : Timer C} {now : UInt64}

theorem Sound.pending_iff (sound : m.Sound) (constructed : m.constructed it = true) :
    (m.timer it).cb.isSome = true ↔ it ∈ m.timers := by
  rw [sound.member it, constructed]
  simp

theorem Sound.removed (sound : m.Sound) :
    m.Removed it ((m.assign it { m.timer it with cb := none }).erase it) where
  sorted := sound.cancelled.sorted
  member := by
    intro other
    change other ∈ m.timers.erase it ↔ _
    rw [sound.nodup.mem_erase_iff, and_comm]
  cleared := by simp [erase, assign]
  others := by
    intro other different
    simp [erase, assign, different]

theorem Sound.rearmed (sound : m.Sound) (member : it ∈ m.timers)
    (ms next : UInt64) :
    m.Rearmed it ms next
      (((m.erase it).assign it
        { m.timer it with ms := ms, next := next }).insert it) where
  sorted :=
    (sound.move member (by simpa using ((sound.member it).mp member).2)).sorted
  member := by
    intro other
    rw [mem_insert]
    change other = it ∨ other ∈ m.timers.erase it ↔ _
    rw [sound.nodup.mem_erase_iff]
    rcases eq_or_ne other it with rfl | different
    · simp [member]
    · simp [different]
  rearmed := by simp [insert, assign]
  others := by
    intro other different
    simp [insert, assign, erase, different]

/-- Rearming with what the timer has changes nothing. -/
theorem Sound.rearmed_same (sound : m.Sound) :
    m.Rearmed it (m.timer it).ms (m.timer it).next m where
  sorted := sound.sorted
  member := fun _ => Iff.rfl
  rearmed := rfl
  others := fun _ _ => rfl

theorem Rearmed.tickle {ms next : UInt64} {after : TimerManager T C}
    (rearmed : m.Rearmed it ms next after) (tickled : Bool) :
    m.Rearmed it ms next { after with tickled := tickled } :=
  ⟨rearmed.sorted, rearmed.member, rearmed.rearmed, rearmed.others⟩

theorem Sound.cancel_reports (sound : m.Sound)
    (constructed : m.constructed it = true) : m.Reports it now .cancel := by
  have result := sound.cancel_eq constructed
  by_cases member : it ∈ m.timers
  · rw [if_pos ((sound.pending_iff constructed).mpr member)] at result
    refine ⟨true, _, result, ?_, fun _ => sound.removed, ?_⟩
    · simp [member]
    · intro answer
      cases answer
  · rw [if_neg (mt (sound.pending_iff constructed).mp member)] at result
    refine ⟨false, m, result, ?_, ?_, fun _ => rfl⟩
    · simp [member]
    · intro answer
      cases answer

theorem Sound.refresh_reports_iff (sound : m.Sound)
    (constructed : m.constructed it = true) :
    m.Reports it now .refresh ↔ it ∉ m.timers := by
  have result := congrArg some (@Sound.refresh_eq _ _ _ m it now sound constructed)
  constructor
  · rintro ⟨answer, after, performed, pending, -⟩ member
    cases performed.symm.trans result
    exact absurd (pending.mpr member) Bool.false_ne_true
  · intro absent
    refine ⟨_, _, result, ?_, ?_, ?_⟩
    · simp [absent]
    · intro answer
      cases answer
    · intro _
      rw [if_neg (mt (sound.pending_iff constructed).mp absent)]

theorem Sound.reset_reports (sound : m.Sound)
    (constructed : m.constructed it = true) {ms : UInt64} {fromNow : Bool}
    (changes : ¬(ms = (m.timer it).ms ∧ fromNow = false)) :
    m.Reports it now (.reset ms fromNow) := by
  have result := @Sound.reset_eq _ _ _ m it now sound constructed ms fromNow
  rw [if_neg changes] at result
  have performed := congrArg
    (fun outcome => some (outcome.1, outcome.2.2)) result
  by_cases member : it ∈ m.timers
  · rw [if_pos ((sound.pending_iff constructed).mpr member)] at performed
    refine ⟨true, _, performed, ?_, ?_, ?_⟩
    · simp [member]
    · intro _
      cases fromNow with
      | true => exact (sound.rearmed member ms (now + ms)).tickle _
      | false => exact (sound.rearmed member ms _).tickle _
    · intro answer
      cases answer
  · rw [if_neg (mt (sound.pending_iff constructed).mp member)] at performed
    refine ⟨false, m, performed, ?_, ?_, fun _ => rfl⟩
    · simp [member]
    · intro answer
      cases answer

theorem Sound.reset_same_iff (sound : m.Sound) :
    m.Reports it now (.reset (m.timer it).ms false) ↔ it ∈ m.timers := by
  have result : m.perform it now (.reset (m.timer it).ms false) =
      some (true, m) := by
    simp [perform, reset]
  constructor
  · rintro ⟨answer, after, performed, pending, -⟩
    cases performed.symm.trans result
    exact pending.mp rfl
  · intro member
    refine ⟨true, m, result, ?_, ?_, ?_⟩
    · simp [member]
    · intro _
      have same := @Sound.rearmed_same _ _ _ m it sound
      simp only [Done]
      rwa [UInt64.sub_add_cancel]
    · intro answer
      cases answer

theorem Sound.reports_answers (sound : m.Sound) (constructed : m.constructed it = true)
    (operation : Operation) :
    m.Reports it now operation ↔ m.Answers it operation := by
  cases operation with
  | cancel => exact iff_of_true (sound.cancel_reports constructed) trivial
  | refresh => exact sound.refresh_reports_iff constructed
  | reset ms fromNow =>
      by_cases same : ms = (m.timer it).ms ∧ fromNow = false
      · obtain ⟨rfl, rfl⟩ := same
        rw [sound.reset_same_iff]
        simp [Answers]
      · exact iff_of_true (sound.reset_reports constructed same)
          fun equal => absurd equal same

end TimerManager

namespace State

/-- `cancel` reports what it did. `refresh` never reports a timer it rearmed, and
`reset` with the period a timer has, and not from now, reports any timer. -/
theorem reports_iff {s : State T C} (reached : Reach Empty (StepOf step) s) {it : T}
    (constructed : s.manager.constructed it = true) (now : UInt64)
    (operation : Operation) :
    s.manager.Reports it now operation ↔ s.manager.Answers it operation :=
  (manager_run reached).reports_answers constructed operation

/-- A pending timer gets a longer period, from its previous start. -/
theorem reports_longer :
    ∃ s : State ℕ Unit, s.manager.timers = [0] ∧
      s.manager.Reports 0 105 (.reset 20 false) := by
  obtain ⟨s, ran, timers, constructed⟩ : ∃ s, exec step nothing
      [.addTimer 0 10 () false 100] = some s ∧ s.manager.timers = [0] ∧
      s.manager.constructed 0 = true := ⟨_, rfl, rfl, rfl⟩
  refine ⟨s, timers,
    (reports_iff (reach_exec (.start _ nothing_empty) ran) constructed 105 _).mpr ?_⟩
  intro _
  simp [timers]

/-- A refreshed timer is rearmed and reported as not pending; a cancelled one is
reported as reset. -/
theorem reports_wrong :
    (∃ s : State ℕ Unit, Reach Empty (StepOf step) s ∧
      s.manager.timers = [0] ∧ (s.manager.refresh 0 105).1 = false ∧
      ((s.manager.refresh 0 105).2.timer 0).next = 115 ∧
      ¬s.manager.Reports 0 105 .refresh) ∧
    ∃ s : State ℕ Unit, Reach Empty (StepOf step) s ∧
      s.manager.constructed 0 = true ∧ s.manager.timers = [] ∧
      (s.manager.reset 0 10 false 105).1 = true ∧
      ¬s.manager.Reports 0 105 (.reset 10 false) := by
  constructor
  · obtain ⟨s, ran, timers, answer, next⟩ : ∃ s, exec step nothing
        [.addTimer 0 10 () false 100] = some s ∧ s.manager.timers = [0] ∧
        (s.manager.refresh 0 105).1 = false ∧
        ((s.manager.refresh 0 105).2.timer 0).next = 115 :=
      ⟨_, rfl, rfl, rfl, rfl⟩
    refine ⟨s, reach_exec (.start _ nothing_empty) ran, timers, answer, next, ?_⟩
    rintro ⟨reported, after, performed, pending, -⟩
    have same : (s.manager.refresh 0 105).1 = reported :=
      congrArg Prod.fst (Option.some.inj performed)
    rw [← same, answer, timers] at pending
    simp at pending
  · obtain ⟨s, ran, constructed, timers, answer⟩ : ∃ s, exec step nothing
        [.addTimer 0 10 () false 100, .cancel 0] = some s ∧
        s.manager.constructed 0 = true ∧ s.manager.timers = [] ∧
        (s.manager.reset 0 10 false 105).1 = true := ⟨_, rfl, rfl, rfl, rfl⟩
    refine ⟨s, reach_exec (.start _ nothing_empty) ran, constructed, timers, answer,
      ?_⟩
    rintro ⟨reported, after, performed, pending, -⟩
    have same : (s.manager.reset 0 10 false 105).1 = reported :=
      congrArg Prod.fst (Option.some.inj performed)
    rw [← same, answer, timers] at pending
    simp at pending

end State

end Sylar.Timers
