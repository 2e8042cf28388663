import Sylar.Logic.Count
import Sylar.Timers.Members

namespace Sylar.Timers.Wakeup

open Logic

/-! The calls that insert a timer beside the idle loops of the workers. A step is
the section under `m_mutex`, one access to `m_tickled` or to
`m_idleThreadCount`, one post, or the entry into the wait or the end of it. -/

/-- Where a worker is in `run()` and `idle()`: between two rounds of `idle()`,
after `++m_idleThreadCount`, after `m_tickled = false`, with the deadline
`getNextTimer` has found, in `GetQueuedCompletionStatus`, out of it, past
`listExpiredCb`, or on its way out because `stopping` said so. -/
inductive Pc
  | outside
  | entered
  | cleared
  | computed (earliest : Option UInt64)
  | blocked (earliest : Option UInt64)
  | woken
  | fired
  | stopped
  | exited
  deriving DecidableEq, Repr

/-- Where a call of `addTimer` or `reset` is: before its section, past it with
`at_front`, past `m_tickled = true`, and past the test of `tickle`. -/
inductive CallPc
  | ready
  | inserted
  | tickled
  | posting
  | done
  deriving DecidableEq, Repr

namespace Pc

def rereads : Pc → Bool
  | .outside => true
  | .entered => true
  | .cleared => true
  | .woken => true
  | .fired => true
  | _ => false

def clears : Pc → Bool
  | .outside => true
  | .entered => true
  | .woken => true
  | .fired => true
  | _ => false

def gone : Pc → Bool
  | .stopped => true
  | .exited => true
  | _ => false

def idles : Pc → Bool
  | .outside => false
  | .exited => false
  | _ => true

/-- The deadline the wait of the worker was computed from. -/
def reading : Pc → Option (Option UInt64)
  | .computed earliest => some earliest
  | .blocked earliest => some earliest
  | _ => none

def waits : Pc → Bool
  | .blocked _ => true
  | _ => false

theorem of_waits {pc : Pc} (waits : pc.waits = true) :
    ∃ earliest, pc = .blocked earliest := by
  cases pc <;> first
    | exact ⟨_, rfl⟩
    | cases waits

theorem gone_or_rereads_or_reading (pc : Pc) :
    pc.gone = true ∨ pc.rereads = true ∨
      ∃ earliest, pc.reading = some earliest := by
  cases pc <;> simp [gone, rereads, reading]

end Pc

namespace CallPc

/-- The call has inserted its timer at the front and not performed its
`tickle`. -/
def pending : CallPc → Bool
  | .inserted => true
  | .tickled => true
  | .posting => true
  | _ => false

/-- The call has set `m_tickled` and not performed its `tickle`. -/
def posts : CallPc → Bool
  | .tickled => true
  | .posting => true
  | _ => false

end CallPc

structure State (W K T C : Type) where
  manager : TimerManager T C
  worker : W → Pc
  call : K → CallPc
  idleThreadCount : Nat
  /-- the notification packets in the completion port -/
  packets : Nat

inductive Action (W K T C : Type)
  | addTimer (call : K) (it : T) (ms : UInt64) (cb : C) (recurring : Bool)
      (now : UInt64)
  | reset (call : K) (it : T) (ms : UInt64) (fromNow : Bool) (now : UInt64)
  /-- the next step of a call -/
  | proceed (call : K)
  /-- the next step of a worker, up to the wait and after `listExpiredCb` -/
  | work (worker : W)
  /-- the wait ends by its timeout or with a completion -/
  | wake (worker : W)
  /-- the wait ends with a notification packet -/
  | dequeue (worker : W)
  | listExpiredCb (worker : W) (now : UInt64) (address : T)
  /-- `stopping` is true: there was no timer -/
  | stop (worker : W)
  | cancel (it : T)
  /-- `tickle` of another caller -/
  | tickle
  /-- `getNextTimer` of another caller -/
  | clear

variable {W K T C : Type} [DecidableEq W] [DecidableEq K] [LinearOrder T]

namespace State

def goto (s : State W K T C) (worker : W) (pc : Pc) : State W K T C :=
  { s with worker := Function.update s.worker worker pc }

def setTickled (s : State W K T C) (tickled : Bool) : State W K T C :=
  { s with manager := { s.manager with tickled := tickled } }

/-- The section of `addTimer(val, lock)`, from its effect without other threads:
`m_tickled` is only set after it. -/
def inserted (s : State W K T C) (call : K)
    (result : Bool × TimerManager T C) : State W K T C :=
  { s with
    manager := { result.2 with tickled := s.manager.tickled }
    call := Function.update s.call call
      (if result.1 then .inserted else .done) }

def earliest (m : TimerManager T C) : Option UInt64 :=
  m.timers.head?.map fun it => (m.timer it).next

def proceed (s : State W K T C) (call : K) : Option (State W K T C) :=
  match s.call call with
  | .inserted =>
      some { s.setTickled true with
        call := Function.update s.call call .tickled }
  | .tickled =>
      some { s with
        call := Function.update s.call call
          (if 0 < s.idleThreadCount then .posting else .done) }
  | .posting =>
      some { s with
        packets := s.packets + 1
        call := Function.update s.call call .done }
  | _ => none

def work (s : State W K T C) (worker : W) : Option (State W K T C) :=
  match s.worker worker with
  | .outside =>
      some { s.goto worker .entered with
        idleThreadCount := s.idleThreadCount + 1 }
  | .entered => some ((s.setTickled false).goto worker .cleared)
  | .cleared => some (s.goto worker (.computed (earliest s.manager)))
  | .computed earliest => some (s.goto worker (.blocked earliest))
  | .fired =>
      some { s.goto worker .outside with
        idleThreadCount := s.idleThreadCount - 1 }
  | .stopped =>
      some { s.goto worker .exited with
        idleThreadCount := s.idleThreadCount - 1 }
  | _ => none

def step (s : State W K T C) : Action W K T C → Option (State W K T C)
  | .addTimer call it ms cb recurring now =>
      if s.call call = .ready ∧ s.manager.constructed it = false then
        some (s.inserted call (s.manager.addTimer it ms cb recurring now))
      else none
  | .reset call it ms fromNow now =>
      if s.call call = .ready ∧ s.manager.constructed it = true then
        some (s.inserted call (s.manager.reset it ms fromNow now).2)
      else none
  | .proceed call => s.proceed call
  | .work worker => s.work worker
  | .wake worker =>
      if (s.worker worker).waits then some (s.goto worker .woken) else none
  | .dequeue worker =>
      if (s.worker worker).waits ∧ 0 < s.packets then
        some { s.goto worker .woken with packets := s.packets - 1 }
      else none
  | .listExpiredCb worker now address =>
      if s.worker worker = .woken ∧ s.manager.constructed address = false then
        some { s.goto worker .fired with
          manager := (s.manager.listExpiredCb now address).2 }
      else none
  | .stop worker =>
      if s.worker worker = .computed none then some (s.goto worker .stopped)
      else none
  | .cancel it =>
      if s.manager.constructed it = true then
        (s.manager.cancel it).map fun (_, manager) =>
          { s with manager := manager }
      else none
  | .tickle =>
      some { s with
        packets :=
          if 0 < s.idleThreadCount then s.packets + 1 else s.packets }
  | .clear => some (s.setTickled false)

structure Initial (s : State W K T C) : Prop where
  timers : s.manager.timers = []
  constructed : ∀ it, s.manager.constructed it = false
  worker : ∀ worker, s.worker worker = .outside
  call : ∀ call, s.call call = .ready
  tickled : s.manager.tickled = false
  idleThreadCount : s.idleThreadCount = 0

end State

/-! What a change of the set means for a wait that was computed before it. -/

/-- A wait computed from this deadline ends in time for every timer. -/
def Covers (m : TimerManager T C) (earliest : Option UInt64) : Prop :=
  ∀ it ∈ m.timers, ∃ time, earliest = some time ∧ time ≤ (m.timer it).next

theorem next_le_of_key_lt {timer : T → Timer C} {first second : T}
    (less : key timer first < key timer second) :
    (timer first).next ≤ (timer second).next := by
  rw [UInt64.le_iff_toNat_le]
  rcases Prod.Lex.toLex_lt_toLex.mp less with less | ⟨same, -⟩
  · exact less.le
  · exact same.le

theorem head_le {m : TimerManager T C} (sound : m.Sound) {first it : T}
    (head : m.timers.head? = some first) (member : it ∈ m.timers) :
    (m.timer first).next ≤ (m.timer it).next := by
  have sorted := sound.sorted
  cases timers : m.timers with
  | nil =>
      rw [timers] at member
      cases member
  | cons front rest =>
      rw [timers] at sorted member head
      cases head
      rcases List.mem_cons.mp member with rfl | later
      · exact UInt64.le_refl _
      · exact next_le_of_key_lt ((List.pairwise_cons.mp sorted).1 it later)

theorem covers_earliest {m : TimerManager T C} (sound : m.Sound) :
    Covers m (State.earliest m) := by
  intro it member
  cases head : m.timers.head? with
  | none =>
      rw [List.head?_eq_none_iff.mp head] at member
      cases member
  | some first =>
      refine ⟨(m.timer first).next, ?_, head_le sound head member⟩
      rw [State.earliest, head]
      rfl

/-- What a section that inserts `it`, or leaves all as it was, does to the set. -/
structure Inserts (m : TimerManager T C) (it : T)
    (result : Bool × TimerManager T C) : Prop where
  sound : result.2.Sound
  others : ∀ other ∈ result.2.timers, other ≠ it →
    other ∈ m.timers ∧ result.2.timer other = m.timer other
  front : result.2 = m ∨
    (result.1 = false → result.2.timers.head? = some it → m.tickled = true)

theorem Covers.inserts {m : TimerManager T C} {it : T}
    {result : Bool × TimerManager T C} {earliest : Option UInt64}
    (covers : Covers m earliest) (inserts : Inserts m it result)
    (behind : result.2.timers.head? ≠ some it) : Covers result.2 earliest := by
  have others : ∀ other ∈ result.2.timers, other ≠ it →
      ∃ time, earliest = some time ∧ time ≤ (result.2.timer other).next := by
    intro other member different
    obtain ⟨before, same⟩ := inserts.others other member different
    rw [same]
    exact covers other before
  intro other member
  rcases eq_or_ne other it with rfl | different
  · cases head : result.2.timers.head? with
    | none =>
        rw [List.head?_eq_none_iff.mp head] at member
        cases member
    | some first =>
        have ahead : first ≠ other := by
          rintro rfl
          exact behind head
        obtain ⟨time, computed, early⟩ :=
          others first (List.mem_of_head? head) ahead
        exact ⟨time, computed,
          UInt64.le_trans early (head_le inserts.sound head member)⟩
  · exact others other member different

theorem addTimerLocked_front {m : TimerManager T C} {it : T}
    (behind : (m.addTimerLocked it).1 = false)
    (head : (m.addTimerLocked it).2.timers.head? = some it) :
    m.tickled = true := by
  simp only [TimerManager.addTimerLocked, TimerManager.atFront] at behind head
  rw [head] at behind
  simpa [TimerManager.insert] using behind

theorem inserts_addTimer {m : TimerManager T C} (sound : m.Sound) {it : T}
    (fresh : m.constructed it = false) (ms : UInt64) (cb : C) (recurring : Bool)
    (now : UInt64) : Inserts m it (m.addTimer it ms cb recurring now) where
  sound := sound.addTimer fresh ms cb recurring
  others := by
    intro other member different
    refine ⟨?_, Function.update_of_ne different _ _⟩
    rcases TimerManager.mem_insert.mp member with same | before
    · exact absurd same different
    · exact before
  front := .inr addTimerLocked_front

theorem inserts_reset {m : TimerManager T C} (sound : m.Sound) {it : T}
    (constructed : m.constructed it = true) (ms : UInt64) (fromNow : Bool)
    (now : UInt64) : Inserts m it (m.reset it ms fromNow now).2 := by
  have still : Inserts m it (false, m) :=
    ⟨sound, fun other member _ => ⟨member, rfl⟩, .inl rfl⟩
  rw [sound.reset_eq constructed]
  split
  · exact still
  · split
    · rename_i armed
      have member := (sound.member it).mpr ⟨constructed, armed⟩
      refine ⟨sound.moveLocked member ?_, ?_, .inr addTimerLocked_front⟩
      · exact armed
      · intro other inside different
        refine ⟨?_, Function.update_of_ne different _ _⟩
        rcases TimerManager.mem_insert.mp inside with same | before
        · exact absurd same different
        · exact List.mem_of_mem_erase before
    · exact still

/-! The invariant: some wait is short enough, or will be made again, or will be
ended by a packet; and `m_tickled` stands for a packet or for a worker that has
yet to clear it. -/

namespace State

def Covered (s : State W K T C) : Prop :=
  (∀ worker, (s.worker worker).gone = true) ∨
  (∃ worker, (s.worker worker).rereads = true) ∨
  (∃ worker earliest, (s.worker worker).reading = some earliest ∧
    Covers s.manager earliest) ∨
  0 < s.packets ∨ ∃ call, (s.call call).pending = true

def Answered (s : State W K T C) : Prop :=
  s.manager.tickled = true →
    (∀ worker, (s.worker worker).gone = true) ∨
    (∃ worker, (s.worker worker).clears = true) ∨
    0 < s.packets ∨ ∃ call, (s.call call).posts = true

omit [DecidableEq W] [DecidableEq K] [LinearOrder T] in
theorem Covered.rereads {s : State W K T C} {worker : W}
    (here : (s.worker worker).rereads = true) : s.Covered :=
  .inr (.inl ⟨worker, here⟩)

omit [DecidableEq W] [DecidableEq K] [LinearOrder T] in
theorem Covered.pending {s : State W K T C} {call : K}
    (here : (s.call call).pending = true) : s.Covered :=
  .inr (.inr (.inr (.inr ⟨call, here⟩)))

omit [DecidableEq W] [DecidableEq K] [LinearOrder T] in
theorem Covered.packets {s : State W K T C} (queued : 0 < s.packets) :
    s.Covered :=
  .inr (.inr (.inr (.inl queued)))

omit [DecidableEq W] [DecidableEq K] [LinearOrder T] in
theorem Answered.clears {s : State W K T C} {worker : W}
    (here : (s.worker worker).clears = true) : s.Answered :=
  fun _ => .inr (.inl ⟨worker, here⟩)

omit [DecidableEq W] [DecidableEq K] [LinearOrder T] in
theorem Answered.posts {s : State W K T C} {call : K}
    (here : (s.call call).posts = true) : s.Answered :=
  fun _ => .inr (.inr (.inr ⟨call, here⟩))

omit [DecidableEq W] [DecidableEq K] [LinearOrder T] in
theorem Answered.packets {s : State W K T C} (queued : 0 < s.packets) :
    s.Answered :=
  fun _ => .inr (.inr (.inl queued))

omit [DecidableEq W] [DecidableEq K] [LinearOrder T] in
/-- What `m_tickled` stands for is enough for a timer put in front. -/
theorem Answered.covered {s : State W K T C} (answered : s.Answered)
    (tickled : s.manager.tickled = true) : s.Covered := by
  rcases answered tickled with gone | ⟨worker, clears⟩ | queued | ⟨call, posts⟩
  · exact .inl gone
  · refine @Covered.rereads _ _ _ _ s worker ?_
    cases pc : s.worker worker <;> rw [pc] at clears <;> first
      | rfl
      | cases clears
  · exact .packets queued
  · refine @Covered.pending _ _ _ _ s call ?_
    cases pc : s.call call <;> rw [pc] at posts <;> first
      | rfl
      | cases posts

omit [DecidableEq K] [LinearOrder T] in
theorem Answered.goto {s : State W K T C} (answered : s.Answered) {worker : W}
    {pc : Pc} (clears : (s.worker worker).clears = false)
    (gone : (s.worker worker).gone = true → pc.gone = true) :
    (s.goto worker pc).Answered := by
  intro tickled
  rcases answered tickled with all | ⟨other, clearing⟩ | rest
  · left
    intro other
    rcases eq_or_ne other worker with rfl | different
    · simpa [State.goto] using gone (all other)
    · simpa [State.goto, different] using all other
  · right; left
    have different : other ≠ worker := by
      rintro rfl
      rw [clears] at clearing
      cases clearing
    exact ⟨other, by simpa [State.goto, different] using clearing⟩
  · exact .inr (.inr rest)

omit [DecidableEq K] [LinearOrder T] in
/-- A worker that is not to read the deadline again moves and keeps the one it
has read. -/
theorem Covered.goto {s : State W K T C} (covered : s.Covered) {worker : W}
    {pc : Pc} (rereads : (s.worker worker).rereads = false)
    (gone : (s.worker worker).gone = true → pc.gone = true)
    (reading : ∀ earliest, (s.worker worker).reading = some earliest →
      pc.reading = some earliest) : (s.goto worker pc).Covered := by
  rcases covered with all | ⟨other, again⟩ | ⟨other, earliest, read, covers⟩ | rest
  · left
    intro other
    rcases eq_or_ne other worker with rfl | different
    · simpa [State.goto] using gone (all other)
    · simpa [State.goto, different] using all other
  · have different : other ≠ worker := by
      rintro rfl
      rw [rereads] at again
      cases again
    refine .inr (.inl ⟨other, ?_⟩)
    simpa [State.goto, different] using again
  · right; right; left
    refine ⟨other, earliest, ?_, covers⟩
    rcases eq_or_ne other worker with rfl | different
    · simpa [State.goto] using reading earliest read
    · simpa [State.goto, different] using read
  · exact .inr (.inr (.inr rest))

omit [DecidableEq K] [LinearOrder T] in
/-- The worker leaves because it saw no timer: for the others there is none
either. -/
theorem Covered.stop {s : State W K T C} (covered : s.Covered) {worker : W}
    (place : s.worker worker = .computed none) :
    (s.goto worker .stopped).Covered := by
  have moved : ∀ other, other ≠ worker →
      (s.goto worker .stopped).worker other = s.worker other :=
    fun other different => Function.update_of_ne different _ _
  have here : (s.goto worker .stopped).worker worker = .stopped :=
    Function.update_self _ _ _
  rcases covered with all | ⟨other, again⟩ | ⟨other, earliest, read, covers⟩ | rest
  · have gone := all worker
    rw [place] at gone
    cases gone
  · have different : other ≠ worker := by
      rintro rfl
      rw [place] at again
      cases again
    exact .inr (.inl ⟨other, by rwa [moved other different]⟩)
  · rcases eq_or_ne other worker with rfl | different
    · rw [place] at read
      cases read
      have none_left : ∀ earliest, Covers s.manager earliest := by
        intro earliest it member
        obtain ⟨time, impossible, -⟩ := covers it member
        cases impossible
      by_cases all : ∀ another, another ≠ other →
          (s.worker another).gone = true
      · left
        intro another
        rcases eq_or_ne another other with rfl | different
        · rw [here]
          rfl
        · rw [moved another different]
          exact all another different
      · push Not at all
        obtain ⟨another, different, stays⟩ := all
        right
        rcases (s.worker another).gone_or_rereads_or_reading with
          gone | again | ⟨earliest, read⟩
        · exact absurd gone stays
        · exact .inl ⟨another, by rwa [moved another different]⟩
        · exact .inr (.inl ⟨another, earliest,
            by rwa [moved another different], none_left earliest⟩)
    · exact .inr (.inr (.inl ⟨other, earliest,
        by rwa [moved other different], covers⟩))
  · exact .inr (.inr (.inr rest))

omit [DecidableEq W] [LinearOrder T] in
theorem Answered.inserted {s : State W K T C} (answered : s.Answered)
    {call : K} (ready : s.call call = .ready)
    (result : Bool × TimerManager T C) : (s.inserted call result).Answered := by
  intro tickled
  rcases answered tickled with all | clears | queued | ⟨other, posts⟩
  · exact .inl all
  · exact .inr (.inl clears)
  · exact .inr (.inr (.inl queued))
  · have different : other ≠ call := by
      rintro rfl
      rw [ready] at posts
      cases posts
    refine .inr (.inr (.inr ⟨other, ?_⟩))
    simpa [State.inserted, different] using posts

omit [DecidableEq W] in
theorem Covered.inserted {s : State W K T C} (covered : s.Covered)
    (answered : s.Answered) {call : K} (ready : s.call call = .ready) {it : T}
    {result : Bool × TimerManager T C} (inserts : Inserts s.manager it result) :
    (s.inserted call result).Covered := by
  cases front : result.1 with
  | true =>
      refine .inr (.inr (.inr (.inr ⟨call, ?_⟩)))
      simp [State.inserted, front, CallPc.pending]
  | false =>
      have kept : (∀ earliest, Covers s.manager earliest →
          Covers result.2 earliest) → (s.inserted call result).Covered := by
        intro covers_kept
        rcases covered with all | again | ⟨worker, earliest, read, covers⟩ |
          queued | ⟨other, pending⟩
        · exact .inl all
        · exact .inr (.inl again)
        · exact .inr (.inr (.inl ⟨worker, earliest, read,
            covers_kept earliest covers⟩))
        · exact .packets queued
        · have different : other ≠ call := by
            rintro rfl
            rw [ready] at pending
            cases pending
          refine .inr (.inr (.inr (.inr ⟨other, ?_⟩)))
          simpa [State.inserted, different] using pending
      rcases inserts.front with same | unless_tickled
      · apply kept
        rw [same]
        exact fun _ => id
      · by_cases head : result.2.timers.head? = some it
        · exact (answered.inserted ready result).covered
            (unless_tickled front head)
        · exact kept fun earliest covers => covers.inserts inserts head

omit [DecidableEq W] [LinearOrder T] in
/-- After `m_tickled = true` the call is pending; a post leaves a packet; and a
test that sees no idle worker has every worker before its next wait. -/
theorem proceed_answered {s next : State W K T C} {call : K}
    (count : s.idleThreadCount = 0 →
      ∀ worker, (s.worker worker).idles = false)
    (taken : s.proceed call = some next) :
    next.Answered ∧ next.Covered := by
  unfold State.proceed at taken
  split at taken <;> cases taken
  · refine ⟨@Answered.posts _ _ _ _ _ call ?_, @Covered.pending _ _ _ _ _ call ?_⟩
    · simp [CallPc.posts]
    · simp [CallPc.pending]
  · by_cases idle : 0 < s.idleThreadCount
    · refine ⟨@Answered.posts _ _ _ _ _ call ?_,
        @Covered.pending _ _ _ _ _ call ?_⟩
      · simp [idle, CallPc.posts]
      · simp [idle, CallPc.pending]
    · have nobody := count (Nat.eq_zero_of_not_pos idle)
      by_cases all : ∀ worker, (s.worker worker).gone = true
      · exact ⟨fun _ => .inl all, .inl all⟩
      · push Not at all
        obtain ⟨worker, stays⟩ := all
        have outside : s.worker worker = .outside := by
          have away := nobody worker
          cases pc : s.worker worker <;> rw [pc] at away stays <;> first
            | rfl
            | exact absurd rfl stays
            | cases away
        refine ⟨@Answered.clears _ _ _ _ _ worker ?_,
          @Covered.rereads _ _ _ _ _ worker ?_⟩
        · simp [outside, Pc.clears]
        · simp [outside, Pc.rereads]
  · exact ⟨.packets (Nat.succ_pos _), .packets (Nat.succ_pos _)⟩

structure Watched [Fintype W] (s : State W K T C) : Prop where
  sound : s.manager.Sound
  count : s.idleThreadCount = tally fun worker => (s.worker worker).idles
  covered : s.Covered
  answered : s.Answered

omit [DecidableEq K] [LinearOrder T] in
theorem moved_count [Fintype W] {s : State W K T C}
    (count : s.idleThreadCount = tally fun worker => (s.worker worker).idles)
    {worker : W} {pc : Pc} {next : Nat}
    (changed : next + (s.worker worker).idles.toNat =
      s.idleThreadCount + pc.idles.toNat) :
    next = tally fun other =>
      (Function.update s.worker worker pc other).idles := by
  have moved := @tally_of_ne W _ _ (fun other => (s.worker other).idles)
    (fun other => (Function.update s.worker worker pc other).idles) worker
    fun other different => by simp [different]
  simp only [Function.update_self] at moved
  omega

omit [DecidableEq W] [DecidableEq K] [LinearOrder T] in
theorem positive [Fintype W] {s : State W K T C}
    (count : s.idleThreadCount = tally fun worker => (s.worker worker).idles)
    {worker : W} (idles : (s.worker worker).idles = true) :
    0 < s.idleThreadCount := by
  rw [count]
  exact tally_pos (fun worker => (s.worker worker).idles) idles

omit [DecidableEq K] in
theorem Watched.work [Fintype W] {s next : State W K T C} (watched : s.Watched)
    {worker : W} (taken : s.work worker = some next) : next.Watched := by
  have moved := @moved_count _ _ _ _ _ _ _ watched.count worker
  unfold State.work at taken
  cases pc : s.worker worker with
  | outside =>
      simp only [pc] at taken
      cases taken
      refine ⟨watched.sound, moved ?_, @Covered.rereads _ _ _ _ _ worker ?_,
        @Answered.clears _ _ _ _ _ worker ?_⟩
      · simp [pc, Pc.idles]
      · simp [State.goto, Pc.rereads]
      · simp [State.goto, Pc.clears]
  | entered =>
      simp only [pc] at taken
      cases taken
      refine ⟨watched.sound.tickle false, moved ?_,
        @Covered.rereads _ _ _ _ _ worker ?_, ?_⟩
      · simp [pc, Pc.idles, State.setTickled, State.goto]
      · simp [State.goto, Pc.rereads]
      · intro tickled
        cases tickled
  | cleared =>
      simp only [pc] at taken
      cases taken
      refine ⟨watched.sound, moved ?_, .inr (.inr (.inl ⟨worker,
        earliest s.manager, ?_, covers_earliest watched.sound⟩)),
        watched.answered.goto ?_ ?_⟩
      · simp [pc, Pc.idles, State.goto]
      · simp [State.goto, Pc.reading]
      · rw [pc]
        rfl
      · rw [pc]
        nofun
  | computed earliest =>
      simp only [pc] at taken
      cases taken
      refine ⟨watched.sound, moved ?_, watched.covered.goto ?_ ?_ ?_,
        watched.answered.goto ?_ ?_⟩
      · simp [pc, Pc.idles, State.goto]
      · rw [pc]
        rfl
      · rw [pc]
        nofun
      · rw [pc]
        exact fun _ => id
      · rw [pc]
        rfl
      · rw [pc]
        nofun
  | fired =>
      simp only [pc] at taken
      cases taken
      have busy := @positive _ _ _ _ _ _ watched.count worker
        (by rw [pc]; rfl)
      refine ⟨watched.sound, moved ?_, @Covered.rereads _ _ _ _ _ worker ?_,
        @Answered.clears _ _ _ _ _ worker ?_⟩
      · simp only [pc, Pc.idles, Bool.toNat_true, Bool.toNat_false]
        omega
      · simp [State.goto, Pc.rereads]
      · simp [State.goto, Pc.clears]
  | stopped =>
      simp only [pc] at taken
      cases taken
      have busy := @positive _ _ _ _ _ _ watched.count worker
        (by rw [pc]; rfl)
      refine ⟨watched.sound, moved ?_,
        show (s.goto worker .exited).Covered from watched.covered.goto ?_ ?_ ?_,
        show (s.goto worker .exited).Answered from watched.answered.goto ?_ ?_⟩
      · simp only [pc, Pc.idles, Bool.toNat_true, Bool.toNat_false]
        omega
      · rw [pc]
        rfl
      · exact fun _ => rfl
      · rw [pc]
        nofun
      · rw [pc]
        rfl
      · exact fun _ => rfl
  | _ =>
      simp only [pc] at taken
      cases taken

omit [DecidableEq K] in
theorem Watched.again [Fintype W] {s : State W K T C} (watched : s.Watched)
    {worker : W} {pc : Pc} (idles : (s.worker worker).idles = pc.idles)
    (rereads : pc.rereads = true) (clears : pc.clears = true)
    {manager : TimerManager T C} (sound : manager.Sound) (packets : Nat) :
    Watched { s.goto worker pc with manager := manager, packets := packets } where
  sound := sound
  count := @moved_count _ _ _ _ _ _ _ watched.count worker pc _
    (by rw [idles]; rfl)
  covered := by
    refine @Covered.rereads _ _ _ _ _ worker ?_
    simpa [State.goto] using rereads
  answered := by
    refine @Answered.clears _ _ _ _ _ worker ?_
    simpa [State.goto] using clears

omit [DecidableEq W] [DecidableEq K] in
theorem Watched.fewer [Fintype W] {s : State W K T C} (watched : s.Watched)
    {manager : TimerManager T C} (sound : manager.Sound)
    (tickled : manager.tickled = s.manager.tickled)
    (kept : ∀ it ∈ manager.timers, it ∈ s.manager.timers ∧
      (manager.timer it).next = (s.manager.timer it).next) :
    Watched { s with manager := manager } where
  sound := sound
  count := watched.count
  covered := by
    rcases watched.covered with all | again | ⟨worker, earliest, read, covers⟩ |
      rest
    · exact .inl all
    · exact .inr (.inl again)
    · refine .inr (.inr (.inl ⟨worker, earliest, read, ?_⟩))
      intro it member
      obtain ⟨before, same⟩ := kept it member
      rw [same]
      exact covers it before
    · exact .inr (.inr (.inr rest))
  answered := by
    intro set
    exact watched.answered (tickled ▸ set)

theorem watched_step [Fintype W] {s next : State W K T C}
    {action : Action W K T C} (watched : s.Watched)
    (taken : s.step action = some next) : next.Watched := by
  cases action with
  | addTimer call it ms cb recurring now =>
      simp only [step] at taken
      split at taken <;> cases taken
      rename_i start
      have inserts := inserts_addTimer watched.sound start.2 ms cb recurring now
      exact ⟨inserts.sound.tickle _, watched.count,
        watched.covered.inserted watched.answered start.1 inserts,
        watched.answered.inserted start.1 _⟩
  | reset call it ms fromNow now =>
      simp only [step] at taken
      split at taken <;> cases taken
      rename_i start
      have inserts := inserts_reset watched.sound start.2 ms fromNow now
      exact ⟨inserts.sound.tickle _, watched.count,
        watched.covered.inserted watched.answered start.1 inserts,
        watched.answered.inserted start.1 _⟩
  | proceed call =>
      obtain ⟨answered, covered⟩ := proceed_answered
        (fun zero => tally_eq_zero.mp (watched.count.symm.trans zero)) taken
      simp only [step, State.proceed] at taken
      split at taken <;> cases taken
      · exact ⟨watched.sound.tickle true, watched.count, covered, answered⟩
      · exact ⟨watched.sound, watched.count, covered, answered⟩
      · exact ⟨watched.sound, watched.count, covered, answered⟩
  | work worker => exact watched.work taken
  | wake worker =>
      simp only [step] at taken
      split at taken <;> cases taken
      rename_i waits
      obtain ⟨earliest, place⟩ := Pc.of_waits waits
      exact watched.again (by rw [place]; rfl) rfl rfl watched.sound s.packets
  | dequeue worker =>
      simp only [step] at taken
      split at taken <;> cases taken
      rename_i ready
      obtain ⟨earliest, place⟩ := Pc.of_waits ready.1
      exact watched.again (by rw [place]; rfl) rfl rfl watched.sound _
  | listExpiredCb worker now address =>
      simp only [step] at taken
      split at taken <;> cases taken
      rename_i ready
      refine watched.again ?_ rfl rfl
        (watched.sound.listExpiredCb now address) s.packets
      rw [ready.1]
      rfl
  | stop worker =>
      simp only [step] at taken
      split at taken <;> cases taken
      rename_i place
      refine ⟨watched.sound, ?_, watched.covered.stop place,
        watched.answered.goto ?_ ?_⟩
      · apply @moved_count _ _ _ _ _ _ _ watched.count worker
        rw [place]
        rfl
      · rw [place]
        rfl
      · rw [place]
        nofun
  | cancel it =>
      simp only [step] at taken
      split at taken
      · rename_i constructed
        rw [watched.sound.cancel_eq constructed] at taken
        cases taken
        split
        · apply watched.fewer watched.sound.cancelled rfl
          intro other member
          refine ⟨List.mem_of_mem_erase member, ?_⟩
          change (Function.update s.manager.timer it _ other).next = _
          rcases eq_or_ne other it with rfl | different
          · rw [Function.update_self]
          · rw [Function.update_of_ne different]
        · exact watched
      · cases taken
  | tickle =>
      cases taken
      refine ⟨watched.sound, watched.count, ?_, ?_⟩
      · rcases watched.covered with all | again | read | queued | pending
        · exact .inl all
        · exact .inr (.inl again)
        · exact .inr (.inr (.inl read))
        · refine .packets ?_
          simp only
          split <;> omega
        · exact .inr (.inr (.inr (.inr pending)))
      · intro tickled
        rcases watched.answered tickled with all | clears | queued | posts
        · exact .inl all
        · exact .inr (.inl clears)
        · refine .inr (.inr (.inl ?_))
          simp only
          split <;> omega
        · exact .inr (.inr (.inr posts))
  | clear =>
      cases taken
      refine ⟨watched.sound.tickle false, watched.count, watched.covered, ?_⟩
      intro tickled
      cases tickled

omit [DecidableEq W] [DecidableEq K] in
theorem Initial.watched [Fintype W] {s : State W K T C} (initial : s.Initial) :
    s.Watched where
  sound := by
    refine ⟨?_, ?_⟩
    · rw [initial.timers]
      exact Data.OrderedSet.sorted_nil _
    · intro it
      simp [initial.timers, initial.constructed]
  count := by
    rw [initial.idleThreadCount, eq_comm, tally_eq_zero]
    intro worker
    rw [initial.worker]
    rfl
  covered := by
    by_cases some_worker : Nonempty W
    · obtain ⟨worker⟩ := some_worker
      refine @Covered.rereads _ _ _ _ _ worker ?_
      rw [initial.worker]
      rfl
    · exact .inl fun worker => absurd ⟨worker⟩ some_worker
  answered := by
    intro tickled
    rw [initial.tickled] at tickled
    cases tickled

theorem watched_run [Fintype W] {s : State W K T C}
    (reached : Reach Initial (StepOf step) s) : s.Watched :=
  @Reach.invariant _ _ _ _ Watched (fun _ initial => initial.watched)
    (fun _ _ _ watched taken => watched_step watched taken) _ reached

/-- When every worker that has not left waits, and there is a timer, some wait
was computed from a deadline that is not later than any in `m_timers`, or a
packet is queued, or a call has still to perform its `tickle`. -/
theorem no_lost_wakeup [Fintype W] {s : State W K T C}
    (reached : Reach Initial (StepOf step) s)
    (waiting : ∃ worker, (s.worker worker).waits = true)
    (all : ∀ worker, (s.worker worker).waits = true ∨
      (s.worker worker).gone = true)
    (timers : s.manager.timers ≠ []) :
    (∃ worker time, s.worker worker = .blocked (some time) ∧
      ∀ it ∈ s.manager.timers, time ≤ (s.manager.timer it).next) ∨
    0 < s.packets ∨ ∃ call, (s.call call).pending = true := by
  rcases (watched_run reached).covered with gone | ⟨worker, again⟩ |
    ⟨worker, earliest, read, covers⟩ | rest
  · obtain ⟨worker, waits⟩ := waiting
    obtain ⟨earliest, pc⟩ := Pc.of_waits waits
    have left := gone worker
    rw [pc] at left
    cases left
  · rcases all worker with waits | gone <;>
      cases pc : s.worker worker <;> simp_all [Pc.waits, Pc.gone, Pc.rereads]
  · obtain ⟨first, member⟩ := List.exists_mem_of_ne_nil _ timers
    obtain ⟨time, rfl, -⟩ := covers first member
    left
    refine ⟨worker, time, ?_, ?_⟩
    · rcases all worker with waits | gone <;>
        cases pc : s.worker worker <;>
          simp_all [Pc.waits, Pc.gone, Pc.reading]
    · intro it inside
      obtain ⟨other, same, early⟩ := covers it inside
      cases same
      exact early
  · exact .inr rest

def start : State Bool Bool ℕ Unit where
  manager := {
    timer := fun _ => ⟨false, 0, 0, none⟩
    constructed := fun _ => false
    timers := []
    tickled := false
    previouseTime := 0 }
  worker := fun _ => .outside
  call := fun _ => .ready
  idleThreadCount := 0
  packets := 0

theorem start_initial : start.Initial :=
  ⟨rfl, fun _ => rfl, fun _ => rfl, fun _ => rfl, rfl, rfl⟩

def intoWait (worker : Bool) : List (Action Bool Bool ℕ Unit) :=
  List.replicate 4 (.work worker)

/-- The workers wait without a timer; a first call wakes one of them, a second
one inserts a later timer. -/
theorem no_lost_wakeup_second :
    ∃ s : State Bool Bool ℕ Unit,
      s.manager.timers = [0, 1] ∧ s.packets = 0 ∧
      (∀ worker, (s.worker worker).waits = true) ∧
      ((∃ worker time, s.worker worker = .blocked (some time) ∧
        ∀ it ∈ s.manager.timers, time ≤ (s.manager.timer it).next) ∨
      0 < s.packets ∨ ∃ call, (s.call call).pending = true) := by
  obtain ⟨s, ran, timers, packets, waiting⟩ : ∃ s, exec step start
      (intoWait false ++ intoWait true ++
        [.addTimer false 0 10 () false 100, .proceed false, .proceed false,
          .proceed false, .dequeue true, .listExpiredCb true 101 2,
          .work true] ++ intoWait true ++
        [.addTimer true 1 20 () false 101]) = some s ∧
      s.manager.timers = [0, 1] ∧ s.packets = 0 ∧
      ∀ worker, (s.worker worker).waits = true :=
    ⟨_, rfl, rfl, rfl, by decide⟩
  have timed : s.manager.timers ≠ [] := by
    rw [timers]
    nofun
  exact ⟨s, timers, packets, waiting,
    no_lost_wakeup (reach_exec (.start _ start_initial) ran)
      ⟨true, waiting true⟩ (fun worker => .inl (waiting worker)) timed⟩

end State

end Sylar.Timers.Wakeup
