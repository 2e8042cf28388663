import Sylar.Timers.Discipline

namespace Sylar.Timers

open Data Logic

/-! What one pass of `listExpiredCb` hands out and leaves. -/

variable {T C : Type} [LinearOrder T]

namespace TimerManager

variable {m : TimerManager T C} {it : T} {now : UInt64} {address : T}

/-- The timers whose deadline has come, or all when the clock was rolled back. -/
def due (m : TimerManager T C) (now : UInt64) : List T :=
  m.timers.filter fun it => m.rollover now || (m.timer it).next ≤ now

omit [LinearOrder T] in
theorem mem_due :
    it ∈ m.due now ↔
      it ∈ m.timers ∧ (m.rollover now = true ∨ (m.timer it).next ≤ now) := by
  simp [due]

section Cut

variable (sorted : OrderedSet.Sorted (key m.timer) m.timers)

include sorted

theorem next_le :
    m.timers.Pairwise fun first second =>
      (m.timer first).next ≤ (m.timer second).next := by
  refine sorted.imp fun {first second} less => ?_
  rw [UInt64.le_iff_toNat_le]
  rcases Prod.Lex.toLex_lt_toLex.mp less with earlier | ⟨same, -⟩
  · exact earlier.le
  · exact same.le

/-! The cut. `lower_bound` stops in front of a timer whose deadline is the clock
reading if its address is not below that of `now_timer`; the loop goes on behind the
last of these. -/

theorem lowerBound_next
    (member : it ∈ OrderedSet.lowerBound (key m.timer) (toLex (now.toNat, address))
      m.timers) : now ≤ (m.timer it).next := by
  have above := Prod.Lex.toLex_le_toLex.mp
    (OrderedSet.le_of_mem_lowerBound sorted member)
  rw [UInt64.le_iff_toNat_le]
  rcases above with later | ⟨same, -⟩
  · exact later.le
  · exact same.le

theorem behind_cut :
    ∀ it ∈ (OrderedSet.lowerBound (key m.timer) (toLex (now.toNat, address))
      m.timers).dropWhile fun it => (m.timer it).next == now,
      now < (m.timer it).next := by
  intro it member
  have above := lowerBound_next sorted ((List.dropWhile_sublist _).subset member)
  have ordered := (next_le sorted).sublist
    (List.dropWhile_sublist fun it => key m.timer it < toLex (now.toNat, address))
  have different := OrderedSet.not_of_mem_dropWhile (by
    refine ordered.imp_of_mem fun {first second} inside _ le same => ?_
    rw [beq_iff_eq] at same ⊢
    rw [same] at le
    exact UInt64.le_antisymm le (lowerBound_next sorted inside)) it member
  rw [beq_iff_eq] at different
  exact UInt64.lt_of_le_of_ne above fun same => different same.symm

theorem expired_eq (now : UInt64) (address : T) :
    m.expired now address = m.due now := by
  symm
  cases rolled : m.rollover now with
  | true =>
      rw [expired, if_pos rolled, due, List.filter_eq_self]
      simp [rolled]
  | false =>
      apply OrderedSet.filter_eq_first
      · rw [expired, if_neg (by simp [rolled]), List.append_assoc,
          List.takeWhile_append_dropWhile]
        exact OrderedSet.below_append_lowerBound ..
      · intro it member
        simpa using (mem_expired member).2
      · intro it member
        have later := UInt64.not_le.mpr (behind_cut sorted it member)
        simp [rolled, later]

theorem handed_eq (now : UInt64) (address : T) :
    m.handed now address = m.due now := by
  unfold handed
  split
  · rename_i empty
    rw [due, empty]
    rfl
  · rename_i first rest timers
    split
    · rename_i early
      rw [Bool.and_eq_true, Bool.not_eq_true', decide_eq_true_eq] at early
      obtain ⟨rolled, early⟩ := early
      have ordered := next_le sorted
      rw [timers] at ordered
      symm
      rw [due, List.filter_eq_nil_iff, timers]
      intro it member
      have above : (m.timer first).next ≤ (m.timer it).next := by
        rcases List.mem_cons.mp member with rfl | later
        · exact UInt64.le_refl _
        · exact (List.pairwise_cons.mp ordered).1 it later
      have outside := UInt64.not_le.mpr (UInt64.lt_of_lt_of_le early above)
      simp [rolled, outside]
    · exact expired_eq sorted now address

end Cut

/-- `listExpiredCb` hands out the callbacks of the timers that are due, in the order of
their deadlines, and leaves the set without them, but for those that recur. -/
structure Passes (m : TimerManager T C) (now : UInt64)
    (cbs : List (Option C)) (after : TimerManager T C) : Prop where
  callbacks : cbs = (m.due now).map fun it => (m.timer it).cb
  ordered : (m.due now).Pairwise fun first second =>
    first ≠ second ∧ (m.timer first).next ≤ (m.timer second).next
  members : ∀ it, it ∈ after.timers ↔
    it ∈ m.timers ∧ it ∉ m.due now ∨
      it ∈ m.due now ∧ (m.timer it).recurring = true
  unchanged : ∀ it, it ∉ m.due now → after.timer it = m.timer it
  rearmed : ∀ it ∈ m.due now, (m.timer it).recurring = true →
    after.timer it = { m.timer it with next := now + (m.timer it).ms }
  silenced : ∀ it ∈ m.due now, (m.timer it).recurring = false →
    after.timer it = { m.timer it with cb := none }
  distinct : after.timers.Nodup

/-- Where every timer was added with a callback, each one handed out can be called. -/
structure Expires (m : TimerManager T C) (now : UInt64)
    (cbs : List (Option C)) (after : TimerManager T C) : Prop
    extends Passes m now cbs after where
  callable : ∀ it ∈ m.due now, (m.timer it).cb.isSome = true

theorem passes (sorted : OrderedSet.Sorted (key m.timer) m.timers) (now : UInt64)
    (address : T) (distinct : (m.listExpiredCb now address).2.timers.Nodup) :
    m.Passes now (m.listExpiredCb now address).1 (m.listExpiredCb now address).2 where
  callbacks := by rw [listExpiredCb_fst, handed_eq sorted]
  ordered := by
    refine List.Pairwise.sublist List.filter_sublist ?_
    exact (OrderedSet.nodup sorted).and (next_le sorted)
  members := by
    intro it
    rw [mem_listExpiredCb sorted, handed_eq sorted]
  unchanged := by
    intro it outside
    rw [listExpiredCb_timer sorted, handed_eq sorted, if_neg outside]
  rearmed := by
    intro it inside recurring
    rw [listExpiredCb_timer sorted, handed_eq sorted, if_pos inside, fired,
      if_pos recurring]
  silenced := by
    intro it inside single
    rw [listExpiredCb_timer sorted, handed_eq sorted, if_pos inside, fired,
      if_neg (by simp [single])]
  distinct := distinct

theorem Sound.expires (sound : m.Sound) (now : UInt64) (address : T) :
    m.Expires now (m.listExpiredCb now address).1
      (m.listExpiredCb now address).2 where
  toPasses := passes sound.sorted now address (sound.listExpiredCb now address).nodup
  callable := by
    intro it member
    exact ((sound.member it).mp (mem_due.mp member).1).2

end TimerManager

namespace State

/-- No operation needs its sums to fit for the order of the set. -/
theorem manager_step {s next : State T C} {action : Action T C}
    (sound : s.manager.Sound) (taken : s.step action = some next) :
    next.manager.Sound := by
  cases action with
  | addTimer it ms cb recurring now =>
      simp only [step] at taken
      split at taken <;> cases taken
      rename_i fresh
      exact sound.addTimer (by simpa using fresh) ms cb recurring
  | cancel it =>
      simp only [step] at taken
      split at taken
      · rename_i constructed
        rw [sound.cancel_eq constructed] at taken
        cases taken
        split
        · exact sound.cancelled
        · exact sound
      · cases taken
  | refresh it now =>
      simp only [step] at taken
      split at taken <;> cases taken
      rename_i constructed
      rw [sound.refresh_eq constructed]
      change TimerManager.Sound (if _ then _ else _)
      split
      · rename_i armed
        exact sound.rearm ((sound.member it).mpr ⟨constructed, armed⟩)
      · exact sound
  | reset it ms fromNow now =>
      simp only [step] at taken
      split at taken <;> cases taken
      rename_i constructed
      rw [sound.reset_eq constructed]
      split
      · exact sound
      · split
        · rename_i armed
          have member := (sound.member it).mpr ⟨constructed, armed⟩
          exact sound.moveLocked member armed
        · exact sound
  | listExpiredCb now address =>
      simp only [step] at taken
      split at taken <;> cases taken
      exact sound.listExpiredCb now address
  | getNextTimer now =>
      cases taken
      exact sound.tickle false

theorem manager_run {s : State T C} (reached : Reach Empty (StepOf step) s) :
    s.manager.Sound :=
  @Reach.invariant _ _ _ _ (fun s => s.manager.Sound)
    (fun _ empty => empty.sound.manager)
    (fun _ _ _ sound taken => manager_step sound taken) _ reached

/-- `listExpiredCb` is exact in every state the operations can lead to. -/
theorem listExpiredCb_exact {s : State T C} (reached : Reach Empty (StepOf step) s)
    (now : UInt64) (address : T) :
    s.manager.Expires now (s.manager.listExpiredCb now address).1
      (s.manager.listExpiredCb now address).2 :=
  (manager_run reached).expires now address

/-- Two timers due at the clock reading, on either side of `now_timer`; the one
that recurs has no period. -/
theorem listExpiredCb_exact_ties :
    ∃ s : State ℕ Unit,
      s.manager.timers = [0, 4, 1] ∧
      (s.manager.listExpiredCb 110 2).1 = [some (), some ()] ∧
      (s.manager.listExpiredCb 110 2).2.timers = [4, 1] ∧
      s.manager.Expires 110 (s.manager.listExpiredCb 110 2).1
        (s.manager.listExpiredCb 110 2).2 := by
  obtain ⟨s, ran, timers, handed, left⟩ : ∃ s, exec step nothing
      [.addTimer 0 10 () false 100, .addTimer 1 20 () false 100,
        .addTimer 4 0 () true 110] = some s ∧
      s.manager.timers = [0, 4, 1] ∧
      (s.manager.listExpiredCb 110 2).1 = [some (), some ()] ∧
      (s.manager.listExpiredCb 110 2).2.timers = [4, 1] := ⟨_, rfl, rfl, rfl, rfl⟩
  exact ⟨s, timers, handed, left,
    listExpiredCb_exact (reach_exec (.start _ nothing_empty) ran) 110 2⟩

end State

end Sylar.Timers
