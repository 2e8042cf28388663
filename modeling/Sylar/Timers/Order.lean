import Sylar.Timers.Expiry

namespace Sylar.Timers

open Data Logic

/-! The set under any use of the timers. A callback may be empty, and a call of
`refresh` or `reset` that has tested `m_cb` may get the lock after other threads
have changed the timer. -/

variable {T C : Type} [LinearOrder T]

/-- `Comparator`, of any two pointers. -/
def comparator (timer : T → Timer C) : Option T → Option T → Bool
  | none, none => false
  | none, some _ => true
  | some _, none => true
  | some lhs, some rhs =>
      if (timer lhs).next < (timer rhs).next then true
      else if (timer rhs).next < (timer lhs).next then false
      else lhs < rhs

theorem comparator_of_key {timer : T → Timer C} {lhs rhs : T}
    (less : key timer lhs < key timer rhs) :
    comparator timer (some lhs) (some rhs) = true := by
  unfold comparator
  simp only
  rcases Prod.Lex.toLex_lt_toLex.mp less with sooner | ⟨same, before⟩
  · rw [if_pos (UInt64.lt_iff_toNat_lt.mpr sooner)]
  · have equal : (timer lhs).next = (timer rhs).next := UInt64.toNat_inj.mp same
    simp [equal, before]

namespace TimerManager

/-- `m_timers` as the pointers it holds. -/
def pointers (m : TimerManager T C) : List (Option T) := m.timers.map some

/-- `addTimer` with a `std::function` that may be empty. -/
def addTimerAny (m : TimerManager T C) (it : T) (ms : UInt64) (cb : Option C)
    (recurring : Bool) (now : UInt64) : Bool × TimerManager T C :=
  ({ m.assign it ⟨recurring, ms, now + ms, cb⟩ with
    constructed := Function.update m.constructed it true }).addTimerLocked it

/-- What `refresh` does under the lock. -/
def refreshLocked (m : TimerManager T C) (it : T) (now : UInt64) :
    Bool × TimerManager T C :=
  match m.find it with
  | none => (false, m)
  | some found => (false, m.rearm found now)

/-- What `reset` does under the lock. -/
def resetLocked (m : TimerManager T C) (it : T) (ms : UInt64) (fromNow : Bool)
    (now : UInt64) : Bool × Bool × TimerManager T C :=
  match m.find it with
  | none => (false, false, m)
  | some found =>
      (true, ((m.erase found).assign it
        { m.timer it with
          ms := ms
          next := m.resetStart it fromNow now + ms }).addTimerLocked it)

theorem refresh_eq_locked (m : TimerManager T C) (it : T) (now : UInt64) :
    m.refresh it now =
      if (m.timer it).cb.isNone then (false, m) else m.refreshLocked it now := rfl

theorem reset_eq_locked (m : TimerManager T C) (it : T) (ms : UInt64)
    (fromNow : Bool) (now : UInt64) :
    m.reset it ms fromNow now =
      if ms = (m.timer it).ms ∧ fromNow = false then (true, false, m)
      else if (m.timer it).cb.isNone then (false, false, m)
      else m.resetLocked it ms fromNow now := rfl

end TimerManager

inductive Call (T C : Type)
  | addTimer (it : T) (ms : UInt64) (cb : Option C) (recurring : Bool)
      (now : UInt64)
  | cancel (it : T)
  | refresh (it : T) (now : UInt64)
  /-- the rest of a call that has tested `m_cb` before -/
  | refreshLocked (it : T) (now : UInt64)
  | reset (it : T) (ms : UInt64) (fromNow : Bool) (now : UInt64)
  | resetLocked (it : T) (ms : UInt64) (fromNow : Bool) (now : UInt64)
  | listExpiredCb (now : UInt64) (address : T)
  | getNextTimer (now : UInt64)

namespace TimerManager

/-- What a call leaves, none where it erases `end()`. A handle is a timer that
was constructed. -/
def call (m : TimerManager T C) : Call T C → Option (TimerManager T C)
  | .addTimer it ms cb recurring now =>
      if m.constructed it then none
      else some (m.addTimerAny it ms cb recurring now).2
  | .cancel it =>
      if m.constructed it then (m.cancel it).map Prod.snd else none
  | .refresh it now =>
      if m.constructed it then some (m.refresh it now).2 else none
  | .refreshLocked it now =>
      if m.constructed it then some (m.refreshLocked it now).2 else none
  | .reset it ms fromNow now =>
      if m.constructed it then some (m.reset it ms fromNow now).2.2 else none
  | .resetLocked it ms fromNow now =>
      if m.constructed it then some (m.resetLocked it ms fromNow now).2.2
      else none
  | .listExpiredCb now address =>
      if m.constructed address then none
      else some (m.listExpiredCb now address).2
  | .getNextTimer now => some (m.getNextTimer now).2

/-- No timer was constructed yet. -/
structure Fresh (m : TimerManager T C) : Prop where
  timers : m.timers = []
  constructed : ∀ it, m.constructed it = false

structure Ordered (m : TimerManager T C) : Prop where
  sorted : OrderedSet.Sorted (key m.timer) m.timers
  inside : ∀ it ∈ m.timers, m.constructed it = true
  kept : ∀ it, m.constructed it = true → (m.timer it).cb.isSome = true →
    it ∈ m.timers

variable {m : TimerManager T C} {it : T} {value : Timer C} {now : UInt64}

theorem Fresh.ordered (fresh : m.Fresh) : m.Ordered where
  sorted := by
    rw [fresh.timers]
    exact OrderedSet.sorted_nil _
  inside := by
    rw [fresh.timers]
    nofun
  kept := by
    intro it constructed
    rw [fresh.constructed it] at constructed
    cases constructed

theorem Ordered.tickle (ordered : m.Ordered) (tickled : Bool) :
    Ordered { m with tickled := tickled } :=
  ⟨ordered.sorted, ordered.inside, ordered.kept⟩

theorem Ordered.find_eq (ordered : m.Ordered) (it : T) :
    m.find it = if it ∈ m.timers then some it else none := by
  split
  · rename_i member
    exact OrderedSet.find_mem ordered.sorted member
  · rename_i absent
    cases found : m.find it with
    | none => rfl
    | some other => exact absurd (mem_of_find found).2 absent

/-- The callback is no part of the order, so `cancel` finds what it erases. -/
theorem Ordered.find_cleared (ordered : m.Ordered)
    (constructed : m.constructed it = true)
    (armed : (m.timer it).cb.isSome = true) :
    (m.assign it { m.timer it with cb := none }).find it = some it := by
  unfold find
  rw [key_assign_of_next (by rfl)]
  exact OrderedSet.find_mem ordered.sorted (ordered.kept it constructed armed)

theorem Ordered.cancel (ordered : m.Ordered) (constructed : m.constructed it = true) :
    ∃ answer after, m.cancel it = some (answer, after) ∧ after.Ordered := by
  unfold TimerManager.cancel
  split
  · rename_i armed
    rw [ordered.find_cleared constructed armed]
    refine ⟨true, _, rfl, ?_, ?_, ?_⟩
    · change OrderedSet.Sorted (key (m.assign it _).timer) (m.timers.erase it)
      rw [key_assign_of_next (by rfl)]
      exact OrderedSet.sorted_erase ordered.sorted it
    · exact fun other member => ordered.inside other (List.mem_of_mem_erase member)
    · intro other built callback
      rcases eq_or_ne other it with rfl | different
      · simp [erase, assign] at callback
      · simp only [erase, assign, ne_eq, different, not_false_eq_true,
          Function.update_of_ne] at callback
        exact (List.mem_erase_of_ne different).mpr
          (ordered.kept other built callback)
  · exact ⟨false, m, rfl, ordered⟩

/-- A timer of the set gets another deadline while it is out of the set. -/
theorem Ordered.move (ordered : m.Ordered) (member : it ∈ m.timers)
    (value : Timer C) : Ordered (((m.erase it).assign it value).insert it) where
  sorted := by
    have distinct := OrderedSet.nodup ordered.sorted
    apply sorted_place (OrderedSet.sorted_erase ordered.sorted it)
    exact fun again => (distinct.mem_erase_iff.mp again).1 rfl
  inside := by
    intro other present
    rcases mem_insert.mp present with rfl | before
    · exact ordered.inside other member
    · exact ordered.inside other (List.mem_of_mem_erase before)
  kept := by
    intro other built callback
    rw [mem_insert]
    rcases eq_or_ne other it with rfl | different
    · exact .inl rfl
    · refine .inr ((List.mem_erase_of_ne different).mpr ?_)
      apply ordered.kept other built
      simpa [insert, assign, erase, different] using callback

theorem Ordered.addTimerAny (ordered : m.Ordered)
    (fresh : m.constructed it = false) (ms : UInt64) (cb : Option C)
    (recurring : Bool) : Ordered (m.addTimerAny it ms cb recurring now).2 where
  sorted := by
    apply sorted_place ordered.sorted
    intro member
    rw [ordered.inside it member] at fresh
    cases fresh
  inside := by
    intro other present
    change Function.update m.constructed it true other = true
    rcases eq_or_ne other it with rfl | different
    · exact Function.update_self _ _ _
    · rw [Function.update_of_ne different]
      exact ordered.inside other ((mem_insert.mp present).resolve_left different)
  kept := by
    intro other built callback
    refine mem_insert.mpr ?_
    rcases eq_or_ne other it with rfl | different
    · exact .inl rfl
    · right
      apply ordered.kept other
      · simpa [TimerManager.addTimerAny, addTimerLocked, insert, different]
          using built
      · simpa [TimerManager.addTimerAny, addTimerLocked, insert, assign,
          different] using callback

theorem Ordered.refreshLocked (ordered : m.Ordered) (it : T) (now : UInt64) :
    Ordered (m.refreshLocked it now).2 := by
  unfold TimerManager.refreshLocked
  split
  · exact ordered
  · rename_i found result
    obtain ⟨rfl, member⟩ := mem_of_find result
    exact ordered.move member _

theorem Ordered.resetLocked (ordered : m.Ordered) (it : T) (ms : UInt64)
    (fromNow : Bool) (now : UInt64) :
    Ordered (m.resetLocked it ms fromNow now).2.2 := by
  unfold TimerManager.resetLocked
  split
  · exact ordered
  · rename_i found result
    obtain ⟨rfl, member⟩ := mem_of_find result
    exact (ordered.move member _).tickle _

/-- In the loop of `listExpiredCb`, the timers that are still to come may have a
callback. -/
structure Emptying (m : TimerManager T C) (pending : List T) : Prop where
  sorted : OrderedSet.Sorted (key m.timer) m.timers
  inside : ∀ it, it ∈ m.timers ∨ it ∈ pending → m.constructed it = true
  kept : ∀ it, m.constructed it = true → (m.timer it).cb.isSome = true →
    it ∈ m.timers ∨ it ∈ pending
  distinct : pending.Nodup
  apart : ∀ it ∈ pending, it ∉ m.timers

theorem Emptying.fire {pending : List T} (emptying : m.Emptying (it :: pending)) :
    Emptying (TimerManager.fire now m it) pending := by
  obtain ⟨fresh, distinct⟩ := List.nodup_cons.mp emptying.distinct
  have absent := emptying.apart it List.mem_cons_self
  refine ⟨sorted_fire emptying.sorted absent, ?_, ?_, distinct, ?_⟩
  · intro other present
    rw [fire_constructed]
    apply emptying.inside
    rw [mem_fire] at present
    rcases present with (⟨rfl, -⟩ | before) | later
    · exact .inr List.mem_cons_self
    · exact .inl before
    · exact .inr (List.mem_cons_of_mem it later)
  · intro other built callback
    rw [fire_constructed] at built
    rw [fire_timer] at callback
    rw [mem_fire]
    rcases eq_or_ne other it with rfl | different
    · rw [Function.update_self, fired] at callback
      split at callback
      · rename_i recurring
        exact .inl (.inl ⟨rfl, recurring⟩)
      · cases callback
    · rw [Function.update_of_ne different] at callback
      rcases emptying.kept other built callback with before | later
      · exact .inl (.inr before)
      · exact .inr ((List.mem_cons.mp later).resolve_left different)
  · intro other later present
    rcases mem_fire.mp present with ⟨rfl, -⟩ | before
    · exact fresh later
    · exact emptying.apart other (List.mem_cons_of_mem it later) before

theorem Emptying.ordered {pending : List T} (emptying : m.Emptying pending) :
    Ordered (pending.foldl (TimerManager.fire now) m) := by
  induction pending generalizing m with
  | nil =>
      exact ⟨emptying.sorted, fun it member => emptying.inside it (.inl member),
        fun it built callback =>
          (emptying.kept it built callback).resolve_right nofun⟩
  | cons it pending ih => exact ih emptying.fire

theorem Ordered.emptying (ordered : m.Ordered) (address : T) (time : UInt64) :
    Emptying { m with
      previouseTime := time
      timers := m.timers.drop (m.expired now address).length }
      (m.expired now address) := by
  have whole := expired_append_drop m now address
  have distinct := OrderedSet.nodup ordered.sorted
  rw [← whole] at distinct
  obtain ⟨first, -, apart⟩ := List.nodup_append.mp distinct
  refine ⟨ordered.sorted.sublist (List.drop_sublist _ _), ?_, ?_, first, ?_⟩
  · intro it present
    apply ordered.inside
    rw [← whole]
    exact List.mem_append.mpr present.symm
  · intro it built callback
    have member := ordered.kept it built callback
    rw [← whole] at member
    exact (List.mem_append.mp member).symm
  · exact fun it member again => apart it member it again rfl

theorem Ordered.listExpiredCb (ordered : m.Ordered) (now : UInt64) (address : T) :
    Ordered (m.listExpiredCb now address).2 := by
  unfold TimerManager.listExpiredCb
  split
  · exact ordered
  · split
    · exact ⟨ordered.sorted, ordered.inside, ordered.kept⟩
    · exact (ordered.emptying address now).ordered

theorem ordered_call {next : TimerManager T C} (ordered : m.Ordered)
    {action : Call T C} (taken : m.call action = some next) : next.Ordered := by
  cases action with
  | addTimer it ms cb recurring now =>
      simp only [call] at taken
      split at taken <;> cases taken
      rename_i fresh
      exact ordered.addTimerAny (by simpa using fresh) ms cb recurring
  | cancel it =>
      simp only [call] at taken
      split at taken
      · rename_i constructed
        obtain ⟨answer, after, result, kept⟩ := ordered.cancel constructed
        rw [result] at taken
        cases taken
        exact kept
      · cases taken
  | refresh it now =>
      simp only [call] at taken
      split at taken <;> cases taken
      rw [refresh_eq_locked]
      split
      · exact ordered
      · exact ordered.refreshLocked it now
  | refreshLocked it now =>
      simp only [call] at taken
      split at taken <;> cases taken
      exact ordered.refreshLocked it now
  | reset it ms fromNow now =>
      simp only [call] at taken
      split at taken <;> cases taken
      rw [reset_eq_locked]
      split
      · exact ordered
      · split
        · exact ordered
        · exact ordered.resetLocked it ms fromNow now
  | resetLocked it ms fromNow now =>
      simp only [call] at taken
      split at taken <;> cases taken
      exact ordered.resetLocked it ms fromNow now
  | listExpiredCb now address =>
      simp only [call] at taken
      split at taken <;> cases taken
      exact ordered.listExpiredCb now address
  | getNextTimer now =>
      cases taken
      exact ordered.tickle false

theorem ordered_run (reached : Reach Fresh (StepOf call) m) : m.Ordered :=
  @Reach.invariant _ _ Fresh (StepOf call) Ordered (fun _ => Fresh.ordered)
    (fun _ _ _ ordered taken => ordered_call ordered taken) m reached

/-- `listExpiredCb` is exact also where callbacks are empty, and between the test and the
lock of a `refresh` or `reset`. -/
theorem listExpiredCb_passes (reached : Reach Fresh (StepOf call) m) (now : UInt64)
    (address : T) :
    m.Passes now (m.listExpiredCb now address).1 (m.listExpiredCb now address).2 := by
  have ordered := ordered_run reached
  apply passes ordered.sorted
  exact OrderedSet.nodup (ordered.listExpiredCb now address).sorted

theorem Ordered.pointers_ordered (ordered : m.Ordered) :
    m.pointers.Pairwise fun lhs rhs => comparator m.timer lhs rhs = true := by
  unfold pointers
  rw [List.pairwise_map]
  exact ordered.sorted.imp comparator_of_key

/-- `m_timers` is in order and holds every timer that can still fire, `cancel`
never erases `end()`, and `find` finds exactly what is in the set. -/
theorem timer_set (reached : Reach Fresh (StepOf call) m) :
    none ∉ m.pointers ∧ m.pointers.Nodup ∧
      (m.pointers.Pairwise fun lhs rhs => comparator m.timer lhs rhs = true) ∧
      ∀ it, m.constructed it = true →
        ((m.timer it).cb.isSome = true → some it ∈ m.pointers) ∧
        m.cancel it ≠ none ∧
        m.find it = if some it ∈ m.pointers then some it else none := by
  have ordered := ordered_run reached
  have pointer : ∀ it, some it ∈ m.pointers ↔ it ∈ m.timers := by
    simp [pointers]
  refine ⟨by simp [pointers], ?_, ordered.pointers_ordered, ?_⟩
  · exact List.pairwise_map.mpr ((OrderedSet.nodup ordered.sorted).imp
      fun different same => different (Option.some.inj same))
  · intro it constructed
    simp only [pointer]
    refine ⟨ordered.kept it constructed, ?_, ordered.find_eq it⟩
    obtain ⟨answer, after, result, -⟩ := ordered.cancel constructed
    rw [result]
    nofun

/-- A recurring timer, one without a callback, and one that is cancelled between
the test and the lock of a call of `reset`. -/
theorem timer_set_cancelled :
    ∃ m : TimerManager ℕ Unit, m.pointers = [some 1, some 0] ∧
      none ∉ m.pointers ∧ m.pointers.Nodup ∧
      (m.pointers.Pairwise fun lhs rhs => comparator m.timer lhs rhs = true) ∧
      ∀ it, m.constructed it = true →
        ((m.timer it).cb.isSome = true → some it ∈ m.pointers) ∧
        m.cancel it ≠ none ∧
        m.find it = if some it ∈ m.pointers then some it else none := by
  obtain ⟨m, ran, pointers⟩ : ∃ m, exec call State.nothing.manager
      [.addTimer 0 10 (some ()) true 100, .addTimer 1 12 none false 100,
        .addTimer 2 5 (some ()) false 100, .cancel 2,
        .resetLocked 2 20 true 101, .listExpiredCb 110 3] = some m ∧
      m.pointers = [some 1, some 0] := ⟨_, rfl, rfl⟩
  have fresh : Fresh State.nothing.manager := ⟨rfl, fun _ => rfl⟩
  exact ⟨m, pointers, timer_set (reach_exec (.start _ fresh) ran)⟩

end TimerManager

end Sylar.Timers
