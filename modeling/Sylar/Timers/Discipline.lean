import Mathlib.Algebra.Group.Nat.Defs
import Mathlib.Data.List.Nodup
import Sylar.Timers.Members

namespace Sylar.Timers

open Data Logic

/-! When a callback is handed out. A run of the operations is kept with the
clock reading each deadline counts from and with the history of what was handed
out and cancelled. -/

inductive Event (T : Type)
  | handed (it : T) (now : UInt64) (rollover : Bool) (deadline : Nat)
  | cancelled (it : T)

namespace Event

def timer {T : Type} : Event T → T
  | .handed it _ _ _ => it
  | .cancelled it => it

def hands {T : Type} [DecidableEq T] (it : T) : Event T → Bool
  | .handed other _ _ _ => other == it
  | .cancelled _ => false

end Event

structure State (T C : Type) where
  manager : TimerManager T C
  /-- the clock reading the deadline of a timer counts from -/
  start : T → Nat
  history : List (Event T)

inductive Action (T C : Type)
  | addTimer (it : T) (ms : UInt64) (cb : C) (recurring : Bool) (now : UInt64)
  | cancel (it : T)
  | refresh (it : T) (now : UInt64)
  | reset (it : T) (ms : UInt64) (fromNow : Bool) (now : UInt64)
  | listExpiredCb (now : UInt64) (address : T)
  | getNextTimer (now : UInt64)

variable {T C : Type} [LinearOrder T]

namespace State

/-- The deadline set by the creation of the timer, its last refresh, its last
reset or its last recurrence. -/
def deadline (s : State T C) (it : T) : Nat :=
  s.start it + (s.manager.timer it).ms.toNat

/-- A handle is a timer that was constructed. -/
def step (s : State T C) : Action T C → Option (State T C)
  | .addTimer it ms cb recurring now =>
      if s.manager.constructed it then none
      else
        some { s with
          manager := (s.manager.addTimer it ms cb recurring now).2
          start := Function.update s.start it now.toNat }
  | .cancel it =>
      if s.manager.constructed it then
        (s.manager.cancel it).map fun (answer, manager) =>
          { s with
            manager := manager
            history :=
              if answer then s.history ++ [.cancelled it] else s.history }
      else none
  | .refresh it now =>
      if s.manager.constructed it then
        some { s with
          manager := (s.manager.refresh it now).2
          start :=
            if (s.manager.timer it).cb.isSome && (s.manager.find it).isSome then
              Function.update s.start it now.toNat
            else s.start }
      else none
  | .reset it ms fromNow now =>
      if s.manager.constructed it then
        some { s with
          manager := (s.manager.reset it ms fromNow now).2.2
          start :=
            if (s.manager.timer it).cb.isSome && (s.manager.find it).isSome &&
                fromNow then
              Function.update s.start it now.toNat
            else s.start }
      else none
  | .listExpiredCb now address =>
      if s.manager.constructed address then none
      else
        some {
          manager := (s.manager.listExpiredCb now address).2
          start := fun it =>
            if it ∈ s.manager.handed now address ∧
                (s.manager.timer it).recurring = true then now.toNat
            else s.start it
          history := s.history ++ (s.manager.handed now address).map fun it =>
            .handed it now (s.manager.rollover now) (s.deadline it) }
  | .getNextTimer now => some { s with manager := (s.manager.getNextTimer now).2 }

/-- No sum of a clock reading and a timeout overflows. -/
def NoOverflow (s : State T C) : Action T C → Prop
  | .addTimer _ ms _ _ now => now.toNat + ms.toNat < 2 ^ 64
  | .cancel _ => True
  | .refresh it now => now.toNat + (s.manager.timer it).ms.toNat < 2 ^ 64
  | .reset it ms fromNow now =>
      (if fromNow then now.toNat else s.start it) + ms.toNat < 2 ^ 64
  | .listExpiredCb now address =>
      ∀ it ∈ s.manager.handed now address,
        (s.manager.timer it).recurring = true →
          now.toNat + (s.manager.timer it).ms.toNat < 2 ^ 64
  | .getNextTimer _ => True

instance (s : State T C) : (action : Action T C) → Decidable (s.NoOverflow action)
  | .addTimer _ ms _ _ now =>
      inferInstanceAs (Decidable (now.toNat + ms.toNat < 2 ^ 64))
  | .cancel _ => inferInstanceAs (Decidable True)
  | .refresh it now =>
      inferInstanceAs (Decidable
        (now.toNat + (s.manager.timer it).ms.toNat < 2 ^ 64))
  | .reset it ms fromNow now =>
      inferInstanceAs (Decidable
        ((if fromNow then now.toNat else s.start it) + ms.toNat < 2 ^ 64))
  | .listExpiredCb now address =>
      inferInstanceAs (Decidable (∀ it ∈ s.manager.handed now address,
        (s.manager.timer it).recurring = true →
          now.toNat + (s.manager.timer it).ms.toNat < 2 ^ 64))
  | .getNextTimer _ => inferInstanceAs (Decidable True)

structure Empty (s : State T C) : Prop where
  timers : s.manager.timers = []
  constructed : ∀ it, s.manager.constructed it = false
  history : s.history = []

/-- What may come after an event. -/
def Before (first later : Event T) : Prop :=
  ∀ it, first = .cancelled it → later.hands it = false

structure Sound (s : State T C) : Prop where
  manager : s.manager.Sound
  next : ∀ it, s.manager.constructed it = true →
    (s.manager.timer it).next.toNat = s.deadline it
  known : ∀ event ∈ s.history, s.manager.constructed event.timer = true
  past : ∀ it, .cancelled it ∈ s.history → (s.manager.timer it).cb = none
  once : ∀ it, s.manager.constructed it = true →
    (s.manager.timer it).recurring = false →
    s.history.countP (Event.hands it) +
      (s.manager.timer it).cb.isSome.toNat ≤ 1
  ordered : s.history.Pairwise Before
  due : ∀ it now rollover deadline,
    .handed it now rollover deadline ∈ s.history →
      deadline ≤ now.toNat ∨ rollover = true

theorem toNat_add_of_lt {first second : UInt64}
    (fits : first.toNat + second.toNat < 2 ^ 64) :
    (first + second).toNat = first.toNat + second.toNat := by
  rw [UInt64.toNat_add, Nat.mod_eq_of_lt fits]

/-- A step that hands out and cancels nothing. -/
theorem Sound.quiet {s : State T C} (sound : s.Sound)
    {manager : TimerManager T C} {start : T → Nat} (kept : manager.Sound)
    (constructed : manager.constructed = s.manager.constructed)
    (timer : ∀ it, (manager.timer it).cb = (s.manager.timer it).cb ∧
      (manager.timer it).recurring = (s.manager.timer it).recurring)
    (next : ∀ it, s.manager.constructed it = true →
      (manager.timer it).next.toNat = start it + (manager.timer it).ms.toNat) :
    Sound { s with manager := manager, start := start } where
  manager := kept
  next := by
    rw [constructed]
    exact next
  known := by
    rw [constructed]
    exact sound.known
  past := by
    intro it member
    rw [(timer it).1]
    exact sound.past it member
  once := by
    intro it
    rw [constructed, (timer it).1, (timer it).2]
    exact sound.once it
  ordered := sound.ordered
  due := sound.due

/-- Nothing has happened to a timer that is not constructed. -/
theorem Sound.untouched {s : State T C} (sound : s.Sound) {it : T}
    (fresh : s.manager.constructed it = false) :
    ∀ event ∈ s.history, event.timer ≠ it := by
  rintro event member rfl
  rw [sound.known event member] at fresh
  cases fresh

theorem hands_timer {event : Event T} {it : T} (hands : event.hands it = true) :
    event.timer = it := by
  cases event with
  | handed other now rollover deadline => exact beq_iff_eq.mp hands
  | cancelled other => cases hands

theorem Sound.addTimer {s : State T C} (sound : s.Sound) {it : T}
    (fresh : s.manager.constructed it = false) {ms now : UInt64}
    (fits : now.toNat + ms.toNat < 2 ^ 64) (cb : C) (recurring : Bool) :
    Sound { s with
      manager := (s.manager.addTimer it ms cb recurring now).2
      start := Function.update s.start it now.toNat } where
  manager := sound.manager.addTimer fresh ms cb recurring
  next := by
    intro other
    change Function.update s.manager.constructed it true other = true →
      (Function.update s.manager.timer it _ other).next.toNat =
        Function.update s.start it now.toNat other +
          (Function.update s.manager.timer it _ other).ms.toNat
    rcases eq_or_ne other it with rfl | different
    · simp only [Function.update_self]
      exact fun _ => toNat_add_of_lt fits
    · simp only [Function.update_of_ne different]
      exact sound.next other
  known := by
    intro event member
    change Function.update s.manager.constructed it true event.timer = true
    rw [Function.update_of_ne (sound.untouched fresh event member)]
    exact sound.known event member
  past := by
    intro other member
    have different : other ≠ it := sound.untouched fresh _ member
    change (Function.update s.manager.timer it _ other).cb = none
    rw [Function.update_of_ne different]
    exact sound.past other member
  once := by
    intro other
    change Function.update s.manager.constructed it true other = true →
      (Function.update s.manager.timer it _ other).recurring = false →
      s.history.countP (Event.hands other) +
        (Function.update s.manager.timer it _ other).cb.isSome.toNat ≤ 1
    rcases eq_or_ne other it with rfl | different
    · have silent : s.history.countP (Event.hands other) = 0 := by
        rw [List.countP_eq_zero]
        intro event member hands
        exact sound.untouched fresh event member (hands_timer hands)
      simp [silent]
    · simp only [Function.update_of_ne different]
      exact sound.once other
  ordered := sound.ordered
  due := sound.due

theorem Sound.cancelled {s : State T C} (sound : s.Sound) {it : T}
    (constructed : s.manager.constructed it = true) :
    Sound { s with
      manager := (s.manager.assign it
        { s.manager.timer it with cb := none }).erase it
      history := s.history ++ [.cancelled it] } where
  manager := sound.manager.cancelled
  next := by
    intro other
    change s.manager.constructed other = true →
      (Function.update s.manager.timer it _ other).next.toNat =
        s.start other + (Function.update s.manager.timer it _ other).ms.toNat
    rcases eq_or_ne other it with rfl | different
    · simp only [Function.update_self]
      exact sound.next other
    · simp only [Function.update_of_ne different]
      exact sound.next other
  known := by
    intro event member
    rcases List.mem_append.mp member with before | added
    · exact sound.known event before
    · obtain rfl := List.mem_singleton.mp added
      exact constructed
  past := by
    intro other member
    change (Function.update s.manager.timer it _ other).cb = none
    rcases eq_or_ne other it with rfl | different
    · rw [Function.update_self]
    · rw [Function.update_of_ne different]
      rcases List.mem_append.mp member with before | added
      · exact sound.past other before
      · cases List.mem_singleton.mp added
        exact absurd rfl different
  once := by
    intro other built
    change (Function.update s.manager.timer it _ other).recurring = false →
      (s.history ++ [Event.cancelled it]).countP (Event.hands other) +
        (Function.update s.manager.timer it _ other).cb.isSome.toNat ≤ 1
    have same : (s.history ++ [Event.cancelled it]).countP (Event.hands other) =
        s.history.countP (Event.hands other) := by
      simp [Event.hands]
    rw [same]
    have before := sound.once other built
    rcases eq_or_ne other it with rfl | different
    · simp only [Function.update_self]
      intro single
      have bound := before single
      simp only [Option.isSome_none, Bool.toNat_false]
      omega
    · simp only [Function.update_of_ne different]
      exact before
  ordered := by
    rw [List.pairwise_append]
    refine ⟨sound.ordered, List.pairwise_singleton _ _, ?_⟩
    intro first _ later member other _
    obtain rfl := List.mem_singleton.mp member
    rfl
  due := by
    intro other now rollover deadline member
    rcases List.mem_append.mp member with before | added
    · exact sound.due other now rollover deadline before
    · cases List.mem_singleton.mp added

/-- The search under the lock decides as `m_cb` did before it. -/
theorem Sound.found {s : State T C} (sound : s.Sound) {it : T}
    (constructed : s.manager.constructed it = true) :
    ((s.manager.timer it).cb.isSome && (s.manager.find it).isSome) =
      (s.manager.timer it).cb.isSome := by
  cases armed : (s.manager.timer it).cb.isSome with
  | false => rfl
  | true =>
      have member := (sound.manager.member it).mpr ⟨constructed, armed⟩
      rw [sound.manager.find_mem member]
      rfl

theorem Sound.refresh {s : State T C} (sound : s.Sound) {it : T}
    (constructed : s.manager.constructed it = true) {now : UInt64}
    (fits : now.toNat + (s.manager.timer it).ms.toNat < 2 ^ 64) :
    Sound { s with
      manager := (s.manager.refresh it now).2
      start :=
        if (s.manager.timer it).cb.isSome && (s.manager.find it).isSome then
          Function.update s.start it now.toNat
        else s.start } := by
  rw [sound.manager.refresh_eq constructed, sound.found constructed]
  split
  · rename_i armed
    have member := (sound.manager.member it).mpr ⟨constructed, armed⟩
    apply sound.quiet (sound.manager.rearm member) rfl
    · intro other
      change (Function.update s.manager.timer it _ other).cb = _ ∧
        (Function.update s.manager.timer it _ other).recurring = _
      rcases eq_or_ne other it with rfl | different
      · simp
      · simp [different]
    · intro other built
      change (Function.update s.manager.timer it _ other).next.toNat =
        Function.update s.start it now.toNat other +
          (Function.update s.manager.timer it _ other).ms.toNat
      rcases eq_or_ne other it with rfl | different
      · simp only [Function.update_self]
        exact toNat_add_of_lt fits
      · simp only [Function.update_of_ne different]
        exact sound.next other built
  · exact sound

theorem Sound.resetStart {s : State T C} (sound : s.Sound) {it : T}
    (constructed : s.manager.constructed it = true) (fromNow : Bool)
    (now : UInt64) :
    (s.manager.resetStart it fromNow now).toNat =
      if fromNow then now.toNat else s.start it := by
  unfold TimerManager.resetStart
  cases fromNow with
  | true => rfl
  | false =>
      have next : _ = s.start it + (s.manager.timer it).ms.toNat :=
        sound.next it constructed
      have above : (s.manager.timer it).ms ≤ (s.manager.timer it).next := by
        rw [UInt64.le_iff_toNat_le]
        omega
      simp only [Bool.false_eq_true, if_false]
      rw [UInt64.toNat_sub_of_le _ _ above]
      omega

theorem Sound.reset {s : State T C} (sound : s.Sound) {it : T}
    (constructed : s.manager.constructed it = true) {ms now : UInt64}
    {fromNow : Bool}
    (fits : (if fromNow then now.toNat else s.start it) + ms.toNat < 2 ^ 64) :
    Sound { s with
      manager := (s.manager.reset it ms fromNow now).2.2
      start :=
        if (s.manager.timer it).cb.isSome && (s.manager.find it).isSome &&
            fromNow then
          Function.update s.start it now.toNat
        else s.start } := by
  rw [sound.manager.reset_eq constructed, sound.found constructed]
  split
  · rename_i same
    rw [same.2, Bool.and_false]
    exact sound
  · split
    · rename_i armed
      have member := (sound.manager.member it).mpr ⟨constructed, armed⟩
      refine sound.quiet (sound.manager.moveLocked member ?_) rfl ?_ ?_
      · exact armed
      · intro other
        change (Function.update s.manager.timer it _ other).cb = _ ∧
          (Function.update s.manager.timer it _ other).recurring = _
        rcases eq_or_ne other it with rfl | different
        · simp
        · simp [different]
      · intro other built
        change (Function.update s.manager.timer it _ other).next.toNat =
          _ + (Function.update s.manager.timer it _ other).ms.toNat
        rcases eq_or_ne other it with rfl | different
        · simp only [Function.update_self]
          have start := sound.resetStart constructed fromNow now
          rw [toNat_add_of_lt (by rwa [start]), start]
          cases fromNow <;> simp [armed]
        · simp only [Function.update_of_ne different]
          rw [sound.next other built]
          split
          · rw [Function.update_of_ne different]
            rfl
          · rfl
    · rename_i silent
      simp only [silent, Bool.false_and]
      exact sound

theorem countP_handed (it : T) (now : UInt64) (rollover : Bool)
    (deadline : T → Nat) (batch : List T) :
    (batch.map fun other =>
      Event.handed other now rollover (deadline other)).countP
        (Event.hands it) = batch.count it := by
  induction batch with
  | nil => rfl
  | cons head batch ih =>
      rw [List.map_cons, List.countP_cons, ih, List.count_cons]
      rfl

theorem Sound.handed_not_cancelled {s : State T C} (sound : s.Sound) {now : UInt64}
    {address it : T} (handed : it ∈ s.manager.handed now address) :
    .cancelled it ∉ s.history := by
  intro cancelled
  have armed := (sound.manager.handed_armed handed).2
  rw [sound.past it cancelled] at armed
  cases armed

theorem Sound.listExpiredCb {s : State T C} (sound : s.Sound) {now : UInt64}
    (address : T)
    (fits : ∀ it ∈ s.manager.handed now address,
      (s.manager.timer it).recurring = true →
        now.toNat + (s.manager.timer it).ms.toNat < 2 ^ 64) :
    Sound {
      manager := (s.manager.listExpiredCb now address).2
      start := fun it =>
        if it ∈ s.manager.handed now address ∧
            (s.manager.timer it).recurring = true then now.toNat
        else s.start it
      history := s.history ++ (s.manager.handed now address).map fun it =>
        .handed it now (s.manager.rollover now) (s.deadline it) } where
  manager := sound.manager.listExpiredCb now address
  next := by
    intro it built
    rw [TimerManager.listExpiredCb_constructed] at built
    have before := sound.next it built
    rw [deadline] at before ⊢
    simp only [TimerManager.listExpiredCb_timer sound.manager.sorted now address it]
    by_cases out : it ∈ s.manager.handed now address
    · cases recurring : (s.manager.timer it).recurring with
      | true =>
          simp only [out, fired, recurring, if_true, and_self]
          exact toNat_add_of_lt (fits it out recurring)
      | false => simpa [out, fired, recurring] using before
    · simpa [out] using before
  known := by
    intro event member
    rw [TimerManager.listExpiredCb_constructed]
    rcases List.mem_append.mp member with before | added
    · exact sound.known event before
    · obtain ⟨it, out, rfl⟩ := List.mem_map.mp added
      exact (sound.manager.handed_armed out).1
  past := by
    intro it member
    have before : .cancelled it ∈ s.history := by
      rcases List.mem_append.mp member with before | added
      · exact before
      · obtain ⟨other, -, impossible⟩ := List.mem_map.mp added
        cases impossible
    have kept : it ∉ s.manager.handed now address :=
      fun out => sound.handed_not_cancelled out before
    simp only [TimerManager.listExpiredCb_timer sound.manager.sorted now address it, if_neg kept]
    exact sound.past it before
  once := by
    intro it built single
    rw [TimerManager.listExpiredCb_constructed] at built
    simp only [TimerManager.listExpiredCb_timer sound.manager.sorted now address it] at single ⊢
    rw [List.countP_append, countP_handed]
    by_cases out : it ∈ s.manager.handed now address
    · rw [List.count_eq_one_of_mem (sound.manager.handed_nodup now address) out]
      have armed := (sound.manager.handed_armed out).2
      rw [if_pos out] at single ⊢
      have once_only : (s.manager.timer it).recurring = false := by
        unfold fired at single
        split at single <;> exact single
      have bound := sound.once it built once_only
      rw [armed] at bound
      simp only [fired, once_only, Bool.false_eq_true, if_false,
        Option.isSome_none, Bool.toNat_false]
      simp only [Bool.toNat_true] at bound
      omega
    · rw [List.count_eq_zero_of_not_mem out]
      rw [if_neg out] at single ⊢
      exact sound.once it built single
  ordered := by
    rw [List.pairwise_append]
    refine ⟨sound.ordered, ?_, ?_⟩
    · rw [List.pairwise_map]
      apply List.pairwise_of_forall
      intro first later it impossible
      cases impossible
    · rintro first before later added it rfl
      obtain ⟨other, out, rfl⟩ := List.mem_map.mp added
      rw [← Bool.not_eq_true]
      intro same
      obtain rfl : other = it := beq_iff_eq.mp same
      exact sound.handed_not_cancelled out before
  due := by
    intro it time rollover deadline member
    rcases List.mem_append.mp member with before | added
    · exact sound.due it time rollover deadline before
    · obtain ⟨other, out, same⟩ := List.mem_map.mp added
      cases same
      obtain ⟨inside, reported | early⟩ := TimerManager.mem_handed out
      · exact .inr reported
      · left
        rw [← sound.next it ((sound.manager.member it).mp inside).1]
        exact UInt64.le_iff_toNat_le.mp early

theorem Empty.sound {s : State T C} (empty : s.Empty) : s.Sound where
  manager := by
    refine ⟨?_, ?_⟩
    · rw [empty.timers]
      exact OrderedSet.sorted_nil _
    · intro it
      simp [empty.timers, empty.constructed]
  next := by
    intro it built
    rw [empty.constructed] at built
    cases built
  known := by simp [empty.history]
  past := by simp [empty.history]
  once := by
    intro it built
    rw [empty.constructed] at built
    cases built
  ordered := by
    rw [empty.history]
    exact List.Pairwise.nil
  due := by simp [empty.history]

theorem sound_step {s next : State T C} {action : Action T C} (sound : s.Sound)
    (fits : s.NoOverflow action) (taken : s.step action = some next) :
    next.Sound := by
  cases action with
  | addTimer it ms cb recurring now =>
      simp only [step] at taken
      split at taken <;> cases taken
      rename_i fresh
      exact sound.addTimer (by simpa using fresh) fits cb recurring
  | cancel it =>
      simp only [step] at taken
      split at taken
      · rename_i constructed
        rw [sound.manager.cancel_eq constructed] at taken
        cases taken
        split
        · exact sound.cancelled constructed
        · exact sound
      · cases taken
  | refresh it now =>
      simp only [step] at taken
      split at taken <;> cases taken
      rename_i constructed
      exact sound.refresh constructed fits
  | reset it ms fromNow now =>
      simp only [step] at taken
      split at taken <;> cases taken
      rename_i constructed
      exact sound.reset constructed fits
  | listExpiredCb now address =>
      simp only [step] at taken
      split at taken <;> cases taken
      exact sound.listExpiredCb address fits
  | getNextTimer now =>
      cases taken
      exact sound.quiet (sound.manager.tickle false) rfl
        (fun it => ⟨rfl, rfl⟩) sound.next

theorem sound_run {s : State T C}
    (reached : Reach Empty (StepWhen step NoOverflow) s) : s.Sound :=
  @Reach.invariant _ _ _ _ Sound (fun _ empty => empty.sound)
    (fun _ _ _ sound taken => sound_step sound taken.1 taken.2) _ reached

/-- A timer that does not recur is handed out once at most, a cancelled one
never again, and none before its deadline unless the clock was rolled back.
`cancel` finds what it erases, and `listExpiredCb` gives the callbacks of the timers
that are noted as handed out. -/
theorem timer_discipline {s : State T C}
    (reached : Reach Empty (StepWhen step NoOverflow) s) :
    (∀ it, s.manager.constructed it = true →
      (s.manager.timer it).recurring = false →
      s.history.countP (Event.hands it) ≤ 1) ∧
    (∀ before after it, s.history = before ++ .cancelled it :: after →
      ∀ event ∈ after, event.hands it = false) ∧
    (∀ it now rollover deadline,
      .handed it now rollover deadline ∈ s.history →
        deadline ≤ now.toNat ∨ rollover = true) ∧
    (∀ it, s.manager.constructed it = true →
      (s.manager.cancel it).isSome = true) ∧
    ∀ now address next, s.step (.listExpiredCb now address) = some next →
      ∃ batch, next.history = s.history ++ batch ∧
        (s.manager.listExpiredCb now address).1 =
          batch.map fun event => (s.manager.timer event.timer).cb := by
  have sound := sound_run reached
  refine ⟨?_, ?_, sound.due, ?_, ?_⟩
  · intro it built single
    exact (Nat.le_add_right _ _).trans (sound.once it built single)
  · intro before after it split event member
    have ordered := sound.ordered
    rw [split, List.pairwise_append, List.pairwise_cons] at ordered
    exact ordered.2.1.1 event member it rfl
  · intro it built
    rw [sound.manager.cancel_eq built]
    rfl
  · intro now address next taken
    simp only [step] at taken
    split at taken <;> cases taken
    refine ⟨_, rfl, ?_⟩
    rw [TimerManager.listExpiredCb_fst, List.map_map]
    rfl

def nothing : State ℕ Unit where
  manager := {
    timer := fun _ => ⟨false, 0, 0, none⟩
    constructed := fun _ => false
    timers := []
    tickled := false
    previouseTime := 0 }
  start := fun _ => 0
  history := []

theorem nothing_empty : nothing.Empty :=
  ⟨rfl, fun _ => rfl, rfl⟩

/-- A timer that fires once and one that recurs, is moved by `reset` and is
cancelled. -/
theorem timer_discipline_cancelled :
    ∃ s : State ℕ Unit,
      s.history = [.handed 1 106 false 105, .handed 0 120 false 110,
        .handed 1 120 false 111, .cancelled 1] ∧
      (∀ it, s.manager.constructed it = true →
        (s.manager.timer it).recurring = false →
        s.history.countP (Event.hands it) ≤ 1) ∧
      ∀ it now rollover deadline,
        .handed it now rollover deadline ∈ s.history →
          deadline ≤ now.toNat ∨ rollover = true := by
  obtain ⟨s, ran, history⟩ : ∃ s, exec (guarded step NoOverflow) nothing
      [.addTimer 0 10 () false 100, .addTimer 1 5 () true 100,
        .listExpiredCb 106 2, .refresh 0 100, .listExpiredCb 120 2,
        .reset 1 7 false 121, .cancel 1, .cancel 1, .reset 0 1 true 122,
        .listExpiredCb 200 2] = some s ∧
      s.history = [.handed 1 106 false 105, .handed 0 120 false 110,
        .handed 1 120 false 111, .cancelled 1] := ⟨_, rfl, rfl⟩
  obtain ⟨once, -, due, -⟩ :=
    timer_discipline (reach_guarded (.start _ nothing_empty) ran)
  exact ⟨s, history, once, due⟩

end State

end Sylar.Timers
