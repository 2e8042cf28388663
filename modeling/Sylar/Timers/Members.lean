import Sylar.Timers.Model

namespace Sylar.Timers

open Data

/-! Which timers are in `m_timers`: those that have a callback. No operation
changes the deadline of a timer while it is in the set. -/

variable {T C : Type} [LinearOrder T]

/-- What `listExpiredCb` leaves of a timer it hands out. -/
def fired (now : UInt64) (value : Timer C) : Timer C :=
  if value.recurring then { value with next := now + value.ms }
  else { value with cb := none }

namespace TimerManager

structure Sound (m : TimerManager T C) : Prop where
  sorted : OrderedSet.Sorted (key m.timer) m.timers
  member : ∀ it, it ∈ m.timers ↔
    m.constructed it = true ∧ (m.timer it).cb.isSome = true

variable {m : TimerManager T C} {it : T} {value : Timer C} {now : UInt64}

theorem key_assign_of_ne {other : T} (different : other ≠ it) :
    key (m.assign it value).timer other = key m.timer other := by
  simp [key, assign, different]

theorem key_assign_of_next (next : value.next = (m.timer it).next) :
    key (m.assign it value).timer = key m.timer := by
  funext other
  rcases eq_or_ne other it with rfl | different
  · simp [key, assign, next]
  · exact key_assign_of_ne different

theorem mem_insert {other : T} :
    other ∈ (m.insert it).timers ↔ other = it ∨ other ∈ m.timers :=
  OrderedSet.mem_insert (key_injective m.timer)

/-- A timer that is not in the set can be given another deadline and be put
in. -/
theorem sorted_place (sorted : OrderedSet.Sorted (key m.timer) m.timers)
    (absent : it ∉ m.timers) :
    OrderedSet.Sorted (key ((m.assign it value).insert it).timer)
      ((m.assign it value).insert it).timers := by
  apply OrderedSet.sorted_insert
  apply OrderedSet.sorted_congr sorted
  intro other member
  apply key_assign_of_ne
  rintro rfl
  exact absent member

theorem Sound.find_mem (sound : m.Sound) (member : it ∈ m.timers) :
    m.find it = some it :=
  OrderedSet.find_mem sound.sorted member

theorem mem_of_find {found : T} (result : m.find it = some found) :
    found = it ∧ it ∈ m.timers :=
  OrderedSet.mem_of_find (key_injective m.timer) result

theorem Sound.nodup (sound : m.Sound) : m.timers.Nodup :=
  OrderedSet.nodup sound.sorted

theorem Sound.not_mem_erase (sound : m.Sound) : it ∉ (m.erase it).timers :=
  fun member => (sound.nodup.mem_erase_iff.mp member).1 rfl

theorem Sound.sorted_erase (sound : m.Sound) :
    OrderedSet.Sorted (key (m.erase it).timer) (m.erase it).timers :=
  OrderedSet.sorted_erase sound.sorted it

theorem Sound.move (sound : m.Sound) (member : it ∈ m.timers)
    (armed : value.cb.isSome = true) :
    Sound (((m.erase it).assign it value).insert it) where
  sorted := sorted_place sound.sorted_erase sound.not_mem_erase
  member := by
    intro other
    rw [mem_insert]
    have before := sound.member other
    rcases eq_or_ne other it with rfl | different
    · have here := before.mp member
      simp [insert, assign, erase, armed, here.1]
    · simp [insert, assign, erase, different, before,
        List.mem_erase_of_ne different]

theorem Sound.addTimer (sound : m.Sound) (fresh : m.constructed it = false)
    (ms : UInt64) (cb : C) (recurring : Bool) :
    Sound (m.addTimer it ms cb recurring now).2 where
  sorted := by
    apply sorted_place sound.sorted
    intro member
    rw [((sound.member it).mp member).1] at fresh
    cases fresh
  member := by
    intro other
    have before := sound.member other
    rcases eq_or_ne other it with rfl | different
    · simp [TimerManager.addTimer, addTimerLocked, mem_insert]
      simp [insert, assign]
    · simp [TimerManager.addTimer, addTimerLocked, mem_insert]
      simp [insert, assign, different, before]

/-! `cancel` finds the timer it has just taken the callback from. -/

theorem Sound.cancel_eq (sound : m.Sound) (constructed : m.constructed it = true) :
    m.cancel it = some
      (if (m.timer it).cb.isSome then
        (true, (m.assign it { m.timer it with cb := none }).erase it)
      else (false, m)) := by
  unfold cancel
  split
  · rename_i armed
    have member := (sound.member it).mpr ⟨constructed, armed⟩
    have found : (m.assign it { m.timer it with cb := none }).find it =
        some it := by
      unfold find
      rw [key_assign_of_next (by rfl)]
      exact sound.find_mem member
    rw [found]
    rfl
  · rfl

theorem Sound.cancelled (sound : m.Sound) :
    Sound ((m.assign it { m.timer it with cb := none }).erase it) where
  sorted := by
    change OrderedSet.Sorted (key (m.assign it _).timer) (m.timers.erase it)
    rw [key_assign_of_next (by rfl)]
    exact sound.sorted_erase
  member := by
    intro other
    have before := sound.member other
    rcases eq_or_ne other it with rfl | different
    · have absent : other ∉ (m.erase other).timers := sound.not_mem_erase
      simp only [erase] at absent
      simp [erase, assign, absent]
    · simp [erase, assign, different, before, List.mem_erase_of_ne different]

/-- `refresh` rearms a timer that is in the set, and no other. -/
theorem Sound.refresh_eq (sound : m.Sound) (constructed : m.constructed it = true) :
    m.refresh it now =
      (false, if (m.timer it).cb.isSome then m.rearm it now else m) := by
  unfold refresh
  cases armed : (m.timer it).cb with
  | none => simp
  | some cb =>
      have member := (sound.member it).mpr ⟨constructed, by simp [armed]⟩
      simp [sound.find_mem member]

theorem Sound.rearm (sound : m.Sound) (member : it ∈ m.timers) :
    Sound (m.rearm it now) :=
  sound.move member ((sound.member it).mp member).2

theorem Sound.reset_eq (sound : m.Sound) (constructed : m.constructed it = true)
    (ms : UInt64) (fromNow : Bool) :
    m.reset it ms fromNow now =
      if ms = (m.timer it).ms ∧ fromNow = false then (true, false, m)
      else if (m.timer it).cb.isSome then
        (true, ((m.erase it).assign it
          { m.timer it with
            ms := ms
            next := m.resetStart it fromNow now + ms }).addTimerLocked it)
      else (false, false, m) := by
  unfold reset
  split
  · rfl
  · cases armed : (m.timer it).cb with
    | none => simp
    | some cb =>
        have member := (sound.member it).mpr ⟨constructed, by simp [armed]⟩
        simp [sound.find_mem member]

theorem Sound.tickle (sound : m.Sound) (tickled : Bool) :
    Sound { m with tickled := tickled } :=
  ⟨sound.sorted, sound.member⟩

theorem Sound.moveLocked (sound : m.Sound) (member : it ∈ m.timers)
    (armed : value.cb.isSome = true) :
    Sound (((m.erase it).assign it value).addTimerLocked it).2 :=
  (sound.move member armed).tickle _

/-! `listExpiredCb` takes out a first part of the set. -/

theorem expired_first (m : TimerManager T C) (now : UInt64) (address : T) :
    m.expired now address <+: m.timers := by
  unfold expired
  split
  · exact List.prefix_refl _
  · have whole := OrderedSet.below_append_lowerBound (key m.timer)
      (toLex (now.toNat, address)) m.timers
    conv_rhs => rw [← whole]
    exact (List.prefix_append_right_inj _).mpr (List.takeWhile_prefix _)

theorem expired_append_drop (m : TimerManager T C) (now : UInt64) (address : T) :
    m.expired now address ++ m.timers.drop (m.expired now address).length =
      m.timers :=
  List.prefix_iff_eq_append.mp (expired_first m now address)

theorem mem_expired {address : T} (member : it ∈ m.expired now address) :
    it ∈ m.timers ∧ (m.rollover now = true ∨ (m.timer it).next ≤ now) := by
  refine ⟨(expired_first m now address).subset member, ?_⟩
  · unfold expired at member
    split at member
    · rename_i reported
      exact .inl reported
    · right
      rcases List.mem_append.mp member with before | equal
      · have less := Prod.Lex.toLex_lt_toLex.mp
          (OrderedSet.of_mem_below before)
        rw [UInt64.le_iff_toNat_le]
        rcases less with less | ⟨same, -⟩
        · exact less.le
        · exact same.le
      · have same := List.mem_takeWhile_imp equal
        rw [beq_iff_eq.mp same]
        exact UInt64.le_refl now

theorem handed_first (m : TimerManager T C) (now : UInt64) (address : T) :
    m.handed now address <+: m.timers := by
  unfold handed
  split
  · exact List.nil_prefix
  · split
    · exact List.nil_prefix
    · exact expired_first m now address

theorem mem_handed {address : T} (member : it ∈ m.handed now address) :
    it ∈ m.timers ∧ (m.rollover now = true ∨ (m.timer it).next ≤ now) := by
  unfold handed at member
  split at member
  · cases member
  · split at member
    · cases member
    · exact mem_expired member

theorem Sound.handed_armed (sound : m.Sound) {address : T}
    (handed : it ∈ m.handed now address) :
    m.constructed it = true ∧ (m.timer it).cb.isSome = true :=
  (sound.member it).mp (mem_handed handed).1

theorem Sound.handed_nodup (sound : m.Sound) (now : UInt64) (address : T) :
    (m.handed now address).Nodup :=
  sound.nodup.sublist (handed_first m now address).sublist

theorem listExpiredCb_fst (m : TimerManager T C) (now : UInt64) (address : T) :
    (m.listExpiredCb now address).1 =
      (m.handed now address).map fun it => (m.timer it).cb := by
  unfold listExpiredCb handed
  split
  · rfl
  · split <;> rfl

/-! The loop of `listExpiredCb` puts the recurring timers back and takes the
callbacks of the others. -/

/-- In the loop, the timers with a callback are in the set or still to come. -/
structure Draining (m : TimerManager T C) (pending : List T) : Prop where
  sorted : OrderedSet.Sorted (key m.timer) m.timers
  member : ∀ it, it ∈ m.timers ∨ it ∈ pending ↔
    m.constructed it = true ∧ (m.timer it).cb.isSome = true
  distinct : pending.Nodup
  apart : ∀ it ∈ pending, it ∉ m.timers

theorem fire_timer (now : UInt64) (m : TimerManager T C) (it : T) :
    (fire now m it).timer = Function.update m.timer it (fired now (m.timer it)) := by
  unfold fire fired
  split <;> rfl

theorem fire_constructed (now : UInt64) (m : TimerManager T C) (it : T) :
    (fire now m it).constructed = m.constructed := by
  unfold fire
  split <;> rfl

/-- A recurring timer is put back. -/
theorem mem_fire {other : T} :
    other ∈ (fire now m it).timers ↔
      other = it ∧ (m.timer it).recurring = true ∨ other ∈ m.timers := by
  unfold fire
  split
  · rename_i recurring
    rw [mem_insert]
    simp [recurring, assign]
  · rename_i once
    simp [once, assign]

theorem sorted_fire (sorted : OrderedSet.Sorted (key m.timer) m.timers)
    (absent : it ∉ m.timers) :
    OrderedSet.Sorted (key (fire now m it).timer) (fire now m it).timers := by
  unfold fire
  split
  · exact sorted_place sorted absent
  · rw [key_assign_of_next (by rfl)]
    exact sorted

theorem Draining.fire {pending : List T} (draining : m.Draining (it :: pending)) :
    Draining (TimerManager.fire now m it) pending := by
  obtain ⟨fresh, distinct⟩ := List.nodup_cons.mp draining.distinct
  have absent := draining.apart it List.mem_cons_self
  have here := (draining.member it).mp (.inr List.mem_cons_self)
  refine ⟨sorted_fire draining.sorted absent, ?_, distinct, ?_⟩
  · intro other
    rw [mem_fire, fire_constructed, fire_timer]
    rcases eq_or_ne other it with rfl | different
    · rw [Function.update_self, fired]
      cases recurring : (m.timer other).recurring with
      | true => simp [here.1, here.2]
      | false => simp [absent, fresh]
    · rw [Function.update_of_ne different, ← draining.member, List.mem_cons]
      tauto
  · intro other member present
    rcases mem_fire.mp present with ⟨rfl, -⟩ | inside
    · exact fresh member
    · exact draining.apart other (List.mem_cons_of_mem it member) inside

theorem Draining.sound {pending : List T} (draining : m.Draining pending) :
    Sound (pending.foldl (TimerManager.fire now) m) := by
  induction pending generalizing m with
  | nil => exact ⟨draining.sorted, fun it => by simpa using draining.member it⟩
  | cons it pending ih => exact ih draining.fire

theorem foldl_fire_timer {pending : List T} (distinct : pending.Nodup) (it : T) :
    (pending.foldl (TimerManager.fire now) m).timer it =
      if it ∈ pending then fired now (m.timer it) else m.timer it := by
  induction pending generalizing m with
  | nil => rfl
  | cons head pending ih =>
      obtain ⟨fresh, distinct⟩ := List.nodup_cons.mp distinct
      rw [List.foldl_cons, ih distinct, fire_timer]
      rcases eq_or_ne it head with rfl | different
      · simp [fresh]
      · simp [different]

theorem foldl_fire_constructed (pending : List T) :
    (pending.foldl (TimerManager.fire now) m).constructed = m.constructed := by
  induction pending generalizing m with
  | nil => rfl
  | cons head pending ih => rw [List.foldl_cons, ih, fire_constructed]

theorem Sound.draining (sound : m.Sound) (address : T) (time : UInt64) :
    Draining { m with
      previouseTime := time
      timers := m.timers.drop (m.expired now address).length }
      (m.expired now address) := by
  have whole := expired_append_drop m now address
  have distinct := sound.nodup
  rw [← whole] at distinct
  obtain ⟨first, -, apart⟩ := List.nodup_append.mp distinct
  refine ⟨?_, ?_, first, ?_⟩
  · exact sound.sorted.sublist (List.drop_sublist _ _)
  · intro it
    rw [or_comm, ← List.mem_append, whole]
    exact sound.member it
  · intro it member inside
    exact apart it member it inside rfl

theorem Sound.listExpiredCb (sound : m.Sound) (now : UInt64) (address : T) :
    Sound (m.listExpiredCb now address).2 := by
  unfold TimerManager.listExpiredCb
  split
  · exact sound
  · split
    · exact ⟨sound.sorted, sound.member⟩
    · exact (sound.draining address now).sound

theorem listExpiredCb_timer (sorted : OrderedSet.Sorted (key m.timer) m.timers)
    (now : UInt64) (address it : T) :
    (m.listExpiredCb now address).2.timer it =
      if it ∈ m.handed now address then fired now (m.timer it)
      else m.timer it := by
  unfold TimerManager.listExpiredCb handed
  split
  · simp
  · split
    · simp
    · apply foldl_fire_timer
      exact (OrderedSet.nodup sorted).sublist (expired_first m now address).sublist

/-- What the loop leaves in the set: what was there, and the timers that recur. -/
theorem mem_foldl_fire {pending : List T} (distinct : pending.Nodup) :
    it ∈ (pending.foldl (TimerManager.fire now) m).timers ↔
      it ∈ m.timers ∨ it ∈ pending ∧ (m.timer it).recurring = true := by
  induction pending generalizing m with
  | nil => simp
  | cons head pending ih =>
      obtain ⟨fresh, distinct⟩ := List.nodup_cons.mp distinct
      rw [List.foldl_cons, ih distinct, mem_fire, fire_timer, List.mem_cons]
      rcases eq_or_ne it head with rfl | different
      · simp only [fresh, true_and, false_and, or_false]
        exact or_comm
      · rw [Function.update_of_ne different]
        simp [different]

/-- The timers handed out leave the set, but for those that recur. -/
theorem mem_listExpiredCb (sorted : OrderedSet.Sorted (key m.timer) m.timers)
    (now : UInt64) (address : T) :
    it ∈ (m.listExpiredCb now address).2.timers ↔
      it ∈ m.timers ∧ it ∉ m.handed now address ∨
        it ∈ m.handed now address ∧ (m.timer it).recurring = true := by
  have whole := expired_append_drop m now address
  have distinct := OrderedSet.nodup sorted
  unfold TimerManager.listExpiredCb handed
  split
  · simp
  · split
    · simp
    · rw [← whole] at distinct
      obtain ⟨first, -, apart⟩ := List.nodup_append.mp distinct
      rw [mem_foldl_fire first]
      refine or_congr_left ?_
      constructor
      · intro later
        refine ⟨List.mem_of_mem_drop later, fun handed => ?_⟩
        exact apart it handed it later rfl
      · rintro ⟨member, kept⟩
        rw [← whole] at member
        exact (List.mem_append.mp member).resolve_left kept

theorem listExpiredCb_constructed (m : TimerManager T C) (now : UInt64)
    (address : T) :
    (m.listExpiredCb now address).2.constructed = m.constructed := by
  unfold TimerManager.listExpiredCb
  split
  · rfl
  · split
    · rfl
    · exact foldl_fire_constructed _

end TimerManager

end Sylar.Timers
