import Mathlib.Algebra.Order.BigOperators.Group.Finset
import Sylar.Async.Lifecycle
import Sylar.Logic.Count

namespace Sylar.AsyncSocketStream.Lifecycle

open Logic Scheduler

/-! The two permits of `m_waitSem`. A call of `start` takes both, hands one to
its `doRead` and one to its `doWrite`, and these return them; a failed call
returns both itself. -/

variable {P E M : Type} [DecidableEq P] [DecidableEq E]

namespace StartPc

/-- The permits the call has taken and neither returned nor handed over. -/
def held : StartPc → Nat
  | .waitSecond => 1
  | .blockedSecond => 1
  | .owns => 2
  | .reconnect => 2
  | .connectCb => 2
  | .closing _ => 2
  | .giveFirst => 2
  | .giveSecond => 1
  | .startRead => 2
  | .startWrite => 1
  | .thrown => 2
  | _ => 0

/-- The call has had both permits, and its tasks are not both scheduled. -/
def busy : StartPc → Bool
  | .owns => true
  | .reconnect => true
  | .connectCb => true
  | .closing _ => true
  | .giveFirst => true
  | .startRead => true
  | .startWrite => true
  | .thrown => true
  | _ => false

def waits : StartPc → Bool
  | .blocked => true
  | .blockedSecond => true
  | _ => false

def spawned : StartPc → Bool
  | .startWrite => true
  | .done => true
  | _ => false

end StartPc

/-- The task is scheduled and has not returned its permit. -/
def ReadPc.held : ReadPc → Nat
  | .absent => 0
  | .tail => 0
  | .done => 0
  | _ => 1

/-- The task is scheduled or running. -/
def ReadPc.alive : ReadPc → Bool
  | .absent => false
  | .done => false
  | .thrown => false
  | _ => true

def WritePc.held : WritePc M → Nat
  | .absent => 0
  | .done => 0
  | _ => 1

namespace State

def held (s : State P E M) (call : P) : Nat :=
  (s.start call).held + (s.read call).held + (s.write call).held

def Busy (s : State P E M) (call : P) : Prop :=
  (s.start call).busy = true ∨ (s.read call).held = 1 ∨
    (s.write call).held = 1

/-- The permits are free, or held by a call, or by a task: `total` of them. -/
structure Permits (total : Nat) (s : State P E M) : Prop where
  sum : s.waitSem.concurrency + ∑ call ∈ s.begun, s.held call = total
  begun : ∀ call, call ∉ s.begun → s.start call = .ready ∧
    s.read call = .absent ∧ s.write call = .absent
  waiting : ∀ call ∈ s.waitSem.waiters, (s.start call).waits = true
  distinct : s.waitSem.waiters.Nodup
  blocked : ∀ call ∈ s.sem.waiters, s.write call = .blocked
  queued : s.sem.waiters.Nodup
  read : ∀ call, s.read call ≠ .absent → (s.start call).spawned = true
  write : ∀ call, s.write call ≠ .absent → s.start call = .done
  alone : ∀ call other, s.Busy call → s.Busy other → call = other

structure Moves (s next : State P E M) (call : P) : Prop where
  start : ∀ other, other ≠ call → next.start other = s.start other
  read : ∀ other, other ≠ call → next.read other = s.read other
  write : ∀ other, other ≠ call → next.write other = s.write other
  waitSem : next.waitSem = s.waitSem
  sem : next.sem.waiters = s.sem.waiters
  begun : next.begun = s.begun

omit [DecidableEq P] [DecidableEq E] in
theorem Moves.held {s next : State P E M} {call other : P}
    (moves : Moves s next call) (different : other ≠ call) :
    next.held other = s.held other := by
  rw [State.held, State.held, moves.start other different,
    moves.read other different, moves.write other different]

omit [DecidableEq P] [DecidableEq E] in
theorem Moves.busy {s next : State P E M} {call other : P}
    (moves : Moves s next call) (different : other ≠ call) :
    next.Busy other ↔ s.Busy other := by
  rw [State.Busy, State.Busy, moves.start other different,
    moves.read other different, moves.write other different]

omit [DecidableEq P] [DecidableEq E] in
theorem held_pos_of_busy {s : State P E M} {call : P} (busy : s.Busy call) :
    0 < s.held call := by
  have started : (s.start call).busy = true → 0 < (s.start call).held := by
    intro active
    cases pc : s.start call <;> rw [pc] at active <;> first
      | exact Nat.succ_pos _
      | cases active
  unfold State.held
  rcases busy with active | reads | writes
  · have := started active
    omega
  · omega
  · omega

omit [DecidableEq E] in
/-- A call that holds all the permits there are holds them alone. -/
theorem alone_of_all {total : Nat} {s : State P E M} {call other : P}
    (sum : s.waitSem.concurrency + ∑ call ∈ s.begun, s.held call = total)
    (begun : ∀ call, call ∉ s.begun → s.start call = .ready ∧
      s.read call = .absent ∧ s.write call = .absent)
    (member : call ∈ s.begun) (all : s.held call = total)
    (different : other ≠ call) : s.held other = 0 := by
  by_cases inside : other ∈ s.begun
  · rw [← Finset.add_sum_erase s.begun s.held member] at sum
    have rest : s.held other ≤ ∑ call ∈ s.begun.erase call, s.held call :=
      Finset.single_le_sum (fun _ _ => Nat.zero_le _)
        (Finset.mem_erase.mpr ⟨different, inside⟩)
    omega
  · obtain ⟨start, read, write⟩ := begun other inside
    rw [held, start, read, write]
    rfl

omit [DecidableEq E] in
theorem Permits.move {total left : Nat} {s next : State P E M} {call : P}
    (permits : Permits total s) (moves : Moves s next call)
    (member : call ∈ s.begun)
    (sum : total + next.held call = left + s.held call)
    (busy : next.Busy call → s.Busy call ∨ next.held call = left)
    (waiting : call ∈ s.waitSem.waiters → (next.start call).waits = true)
    (blocked : call ∈ s.sem.waiters → next.write call = .blocked)
    (read : next.read call ≠ .absent → (next.start call).spawned = true)
    (write : next.write call ≠ .absent → next.start call = .done) :
    Permits left next := by
  have begun : ∀ other, other ∉ next.begun → next.start other = .ready ∧
      next.read other = .absent ∧ next.write other = .absent := by
    intro other outside
    rw [moves.begun] at outside
    have different : other ≠ call := by
      rintro rfl
      exact outside member
    rw [moves.start other different, moves.read other different,
      moves.write other different]
    exact permits.begun other outside
  have total_eq : next.waitSem.concurrency +
      ∑ other ∈ next.begun, next.held other = left := by
    have changed := total_of_ne member fun other _ different =>
      @Moves.held _ _ _ _ _ call other moves different
    have before := permits.sum
    rw [moves.waitSem, moves.begun]
    omega
  have alone : ∀ other, other ≠ call → next.Busy call → ¬next.Busy other := by
    intro other different active again
    rcases busy active with before | all
    · rw [moves.busy different] at again
      exact different (permits.alone other call again before)
    · have positive := held_pos_of_busy again
      rw [alone_of_all total_eq begun (moves.begun ▸ member) all different]
        at positive
      exact lt_irrefl 0 positive
  refine ⟨total_eq, begun, ?_, ?_, ?_, ?_, ?_, ?_, ?_⟩
  · rw [moves.waitSem]
    intro other inside
    rcases eq_or_ne other call with rfl | different
    · exact waiting inside
    · rw [moves.start other different]
      exact permits.waiting other inside
  · rw [moves.waitSem]
    exact permits.distinct
  · rw [moves.sem]
    intro other inside
    rcases eq_or_ne other call with rfl | different
    · exact blocked inside
    · rw [moves.write other different]
      exact permits.blocked other inside
  · rw [moves.sem]
    exact permits.queued
  · intro other
    rcases eq_or_ne other call with rfl | different
    · exact read
    · rw [moves.read other different, moves.start other different]
      exact permits.read other
  · intro other
    rcases eq_or_ne other call with rfl | different
    · exact write
    · rw [moves.write other different, moves.start other different]
      exact permits.write other
  · intro first second active again
    rcases eq_or_ne first call with rfl | different
    · by_contra other
      exact alone second (Ne.symm other) active again
    · rcases eq_or_ne second call with rfl | apart
      · exact absurd active (alone first different again)
      · exact permits.alone first second ((moves.busy different).mp active)
          ((moves.busy apart).mp again)

/-! What the parts of a step do to the permits. -/

omit [DecidableEq E] in
theorem moves_setStart (s : State P E M) (call : P) (pc : StartPc) :
    Moves s (s.setStart call pc) call where
  start := fun _ different => Function.update_of_ne different _ _
  read := fun _ _ => rfl
  write := fun _ _ => rfl
  waitSem := rfl
  sem := rfl
  begun := rfl

omit [DecidableEq E] in
theorem moves_setRead (s : State P E M) (call : P) (pc : ReadPc) :
    Moves s (s.setRead call pc) call where
  start := fun _ _ => rfl
  read := fun _ different => Function.update_of_ne different _ _
  write := fun _ _ => rfl
  waitSem := rfl
  sem := rfl
  begun := rfl

omit [DecidableEq E] in
theorem moves_setWrite (s : State P E M) (call : P) (pc : WritePc M) :
    Moves s (s.setWrite call pc) call where
  start := fun _ _ => rfl
  read := fun _ _ => rfl
  write := fun _ different => Function.update_of_ne different _ _
  waitSem := rfl
  sem := rfl
  begun := rfl

omit [DecidableEq E] in
@[simp] theorem setStart_start (s : State P E M) (call : P) (pc : StartPc) :
    (s.setStart call pc).start call = pc := Function.update_self _ _ _

omit [DecidableEq E] in
@[simp] theorem setStart_read (s : State P E M) (call : P) (pc : StartPc) :
    (s.setStart call pc).read = s.read := rfl

omit [DecidableEq E] in
@[simp] theorem setStart_write (s : State P E M) (call : P) (pc : StartPc) :
    (s.setStart call pc).write = s.write := rfl

omit [DecidableEq E] in
@[simp] theorem setRead_read (s : State P E M) (call : P) (pc : ReadPc) :
    (s.setRead call pc).read call = pc := Function.update_self _ _ _

omit [DecidableEq E] in
@[simp] theorem setRead_start (s : State P E M) (call : P) (pc : ReadPc) :
    (s.setRead call pc).start = s.start := rfl

omit [DecidableEq E] in
@[simp] theorem setRead_write (s : State P E M) (call : P) (pc : ReadPc) :
    (s.setRead call pc).write = s.write := rfl

omit [DecidableEq E] in
@[simp] theorem setWrite_write (s : State P E M) (call : P) (pc : WritePc M) :
    (s.setWrite call pc).write call = pc := Function.update_self _ _ _

omit [DecidableEq E] in
@[simp] theorem setWrite_start (s : State P E M) (call : P) (pc : WritePc M) :
    (s.setWrite call pc).start = s.start := rfl

omit [DecidableEq E] in
@[simp] theorem setWrite_read (s : State P E M) (call : P) (pc : WritePc M) :
    (s.setWrite call pc).read = s.read := rfl

omit [DecidableEq E] in
theorem Permits.member {total : Nat} {s : State P E M} (permits : Permits total s)
    {call : P} (active : s.start call ≠ .ready) : call ∈ s.begun := by
  by_contra outside
  exact active (permits.begun call outside).1

omit [DecidableEq P] [DecidableEq E] in
theorem Permits.outside {total : Nat} {s : State P E M} (permits : Permits total s)
    {call : P} (running : (s.start call).waits = false) :
    call ∉ s.waitSem.waiters := by
  intro inside
  rw [permits.waiting call inside] at running
  cases running

omit [DecidableEq P] [DecidableEq E] in
theorem Permits.unspawned {total : Nat} {s : State P E M}
    (permits : Permits total s) {call : P}
    (early : (s.start call).spawned = false) :
    s.read call = .absent ∧ s.write call = .absent := by
  constructor
  · by_contra present
    rw [permits.read call present] at early
    cases early
  · by_contra present
    rw [permits.write call present] at early
    cases early

omit [DecidableEq E] in
theorem Permits.start_move {total left : Nat} {s : State P E M}
    (permits : Permits total s) {call : P} {pc : StartPc}
    (active : s.start call ≠ .ready)
    (early : (s.start call).spawned = false)
    (waiting : call ∈ s.waitSem.waiters → pc.waits = true)
    (sum : total + pc.held = left + (s.start call).held)
    (busy : pc.busy = true → (s.start call).busy = true ∨ pc.held = left) :
    Permits left (s.setStart call pc) := by
  obtain ⟨read, write⟩ := permits.unspawned early
  apply permits.move (moves_setStart s call pc) (permits.member active)
  · simp only [held, setStart_start, setStart_read, setStart_write, read, write]
    exact sum
  · rintro (active | impossible | impossible)
    · rw [setStart_start] at active
      rcases busy active with before | all
      · exact .inl (.inl before)
      · right
        simp [held, read, write, all, ReadPc.held, WritePc.held]
    · simp [read, ReadPc.held] at impossible
    · simp [write, WritePc.held] at impossible
  · simpa using waiting
  · intro inside
    have waits := permits.blocked call inside
    rw [write] at waits
    cases waits
  · simp [read]
  · simp [write]

omit [DecidableEq E] in
theorem Permits.read_move {total left : Nat} {s : State P E M}
    (permits : Permits total s) {call : P} {pc : ReadPc}
    (present : s.read call ≠ .absent)
    (sum : total + pc.held = left + (s.read call).held)
    (busy : pc.held = 1 → (s.read call).held = 1) :
    Permits left (s.setRead call pc) := by
  have spawned := permits.read call present
  have active : s.start call ≠ .ready := by
    intro ready
    rw [ready] at spawned
    cases spawned
  apply permits.move (moves_setRead s call pc) (permits.member active)
  · simp only [held, setRead_start, setRead_read, setRead_write]
    omega
  · rintro (started | reads | writes)
    · exact .inl (.inl started)
    · rw [setRead_read] at reads
      exact .inl (.inr (.inl (busy reads)))
    · exact .inl (.inr (.inr writes))
  · exact permits.waiting call
  · exact permits.blocked call
  · exact fun _ => spawned
  · exact permits.write call

omit [DecidableEq E] in
theorem Permits.write_move {total left : Nat} {s : State P E M}
    (permits : Permits total s) {call : P} {pc : WritePc M}
    (present : s.write call ≠ .absent)
    (blocked : call ∈ s.sem.waiters → pc = .blocked)
    (sum : total + pc.held = left + (s.write call).held)
    (busy : pc.held = 1 → (s.write call).held = 1) :
    Permits left (s.setWrite call pc) := by
  have done := permits.write call present
  have active : s.start call ≠ .ready := by
    rw [done]
    nofun
  apply permits.move (moves_setWrite s call pc) (permits.member active)
  · simp only [held, setWrite_start, setWrite_read, setWrite_write]
    omega
  · rintro (started | reads | writes)
    · exact .inl (.inl started)
    · exact .inl (.inr (.inl reads))
    · rw [setWrite_write] at writes
      exact .inl (.inr (.inr (busy writes)))
  · exact permits.waiting call
  · simpa using blocked
  · exact permits.read call
  · exact fun _ => done

omit [DecidableEq P] [DecidableEq E] in
theorem Permits.congr {total : Nat} {s next : State P E M}
    (permits : Permits total s) (start : next.start = s.start)
    (read : next.read = s.read) (write : next.write = s.write)
    (waitSem : next.waitSem = s.waitSem) (sem : next.sem.waiters = s.sem.waiters)
    (begun : next.begun = s.begun) : Permits total next := by
  obtain ⟨connected, starts, reads, writes, enqueue, waitSem', sem', queue,
    begun', pushed, sent, connectionPushed, connectionSent⟩ := next
  obtain rfl : starts = s.start := start
  obtain rfl : reads = s.read := read
  obtain rfl : writes = s.write := write
  obtain rfl : waitSem' = s.waitSem := waitSem
  obtain rfl : begun' = s.begun := begun
  change sem'.waiters = s.sem.waiters at sem
  refine ⟨permits.sum, permits.begun, permits.waiting, permits.distinct, ?_, ?_,
    permits.read, permits.write, permits.alone⟩
  · simp only [sem]
    exact permits.blocked
  · simp only [sem]
    exact permits.queued

omit [DecidableEq E] in
/-- A returned permit is free again or goes to the first waiter. -/
theorem Permits.waitSemNotify {s : State P E M} (permits : Permits 1 s) :
    Permits 2 s.waitSemNotify := by
  unfold State.waitSemNotify
  split
  · rename_i nobody
    refine ⟨?_, permits.begun, ?_, ?_, permits.blocked, permits.queued,
      permits.read, permits.write, permits.alone⟩
    · have sum := permits.sum
      change s.waitSem.concurrency + 1 + ∑ call ∈ s.begun, s.held call = 2
      omega
    · exact permits.waiting
    · exact permits.distinct
  · rename_i next waiters first
    have waits := permits.waiting next (by rw [first]; exact List.mem_cons_self)
    have distinct := permits.distinct
    rw [first] at distinct
    obtain ⟨absent, distinct⟩ := List.nodup_cons.mp distinct
    have popped : Permits 1 { s with
        waitSem := { s.waitSem with waiters := waiters } } := by
      refine ⟨permits.sum, permits.begun, ?_, distinct, permits.blocked,
        permits.queued, permits.read, permits.write, permits.alone⟩
      intro call inside
      apply permits.waiting
      rw [first]
      exact List.mem_cons_of_mem next inside
    cases pc : s.start next with
    | blocked =>
        apply popped.start_move
        · simp [pc]
        · simp [pc, StartPc.spawned]
        · exact fun inside => absurd inside absent
        · simp [pc, resumed, StartPc.held]
        · simp [resumed, StartPc.busy]
    | blockedSecond =>
        apply popped.start_move
        · simp [pc]
        · simp [pc, StartPc.spawned]
        · exact fun inside => absurd inside absent
        · simp [pc, resumed, StartPc.held]
        · simp [resumed, StartPc.held]
    | _ =>
        rw [pc] at waits
        cases waits

omit [DecidableEq E] in
theorem Permits.waitSemWait {s : State P E M} (permits : Permits 2 s) {call : P}
    {taken queued : StartPc} (active : s.start call ≠ .ready)
    (early : (s.start call).spawned = false)
    (running : (s.start call).waits = false)
    (gains : taken.held = (s.start call).held + 1)
    (alone : taken.busy = true → taken.held = 2)
    (waits : queued.waits = true) (idle : queued.busy = false)
    (same : queued.held = (s.start call).held) :
    Permits 2 (s.waitSemWait call taken queued) := by
  have outside : call ∉ s.waitSem.waiters := permits.outside running
  unfold State.waitSemWait
  split
  · rename_i free
    have fewer : Permits 1 { s with
        waitSem := { s.waitSem with
          concurrency := s.waitSem.concurrency - 1 } } := by
      refine ⟨?_, permits.begun, permits.waiting, permits.distinct,
        permits.blocked, permits.queued, permits.read, permits.write,
        permits.alone⟩
      have sum := permits.sum
      change s.waitSem.concurrency - 1 + ∑ call ∈ s.begun, s.held call = 1
      omega
    apply fewer.start_move active early
    · exact fun inside => absurd inside outside
    · change 1 + taken.held = 2 + (s.start call).held
      omega
    · exact fun busy => .inr (alone busy)
  · have moved : Permits 2 (s.setStart call queued) := by
      apply permits.start_move active early
      · exact fun _ => waits
      · rw [same]
      · rw [idle]
        nofun
    refine ⟨moved.sum, moved.begun, ?_, ?_, moved.blocked, moved.queued,
      moved.read, moved.write, moved.alone⟩
    · intro other inside
      rcases List.mem_append.mp inside with before | added
      · exact moved.waiting other before
      · obtain rfl := List.mem_singleton.mp added
        exact (setStart_start s other queued).symm ▸ waits
    · refine List.Nodup.append permits.distinct (List.nodup_singleton call) ?_
      intro other before added
      obtain rfl := List.mem_singleton.mp added
      exact outside before

omit [DecidableEq E] in
theorem Permits.semNotify {total : Nat} {s : State P E M}
    (permits : Permits total s) : Permits total s.semNotify := by
  unfold State.semNotify
  split
  · exact permits.congr rfl rfl rfl rfl rfl rfl
  · rename_i next waiters first
    have blocked := permits.blocked next (by rw [first]; exact List.mem_cons_self)
    have queued := permits.queued
    rw [first] at queued
    obtain ⟨absent, queued⟩ := List.nodup_cons.mp queued
    have popped : Permits total { s with
        sem := { s.sem with waiters := waiters } } := by
      refine ⟨permits.sum, permits.begun, permits.waiting, permits.distinct, ?_,
        queued, permits.read, permits.write, permits.alone⟩
      intro call inside
      apply permits.blocked
      rw [first]
      exact List.mem_cons_of_mem next inside
    apply popped.write_move
    · simp [blocked]
    · exact fun inside => absurd inside absent
    · simp [blocked, WritePc.held]
    · simp [blocked, WritePc.held]

omit [DecidableEq E] in
theorem Permits.semWait {s : State P E M} (permits : Permits 2 s) {call : P}
    (waits : s.write call = .wait) : Permits 2 (s.semWait call) := by
  have outside : call ∉ s.sem.waiters := by
    intro inside
    rw [permits.blocked call inside] at waits
    cases waits
  unfold State.semWait
  split
  · have fewer : Permits 2 { s with
        sem := { s.sem with concurrency := s.sem.concurrency - 1 } } :=
      permits.congr rfl rfl rfl rfl rfl rfl
    apply fewer.write_move
    · simp [waits]
    · exact fun inside => absurd inside outside
    · simp [waits, WritePc.held]
    · simp [waits, WritePc.held]
  · have moved : Permits 2 (s.setWrite call .blocked) := by
      apply permits.write_move
      · simp [waits]
      · exact fun _ => rfl
      · simp [waits, WritePc.held]
      · simp [waits, WritePc.held]
    refine ⟨moved.sum, moved.begun, moved.waiting, moved.distinct, ?_, ?_,
      moved.read, moved.write, moved.alone⟩
    · intro other inside
      rcases List.mem_append.mp inside with before | added
      · exact moved.blocked other before
      · obtain rfl := List.mem_singleton.mp added
        exact setWrite_write s other .blocked
    · refine List.Nodup.append permits.queued (List.nodup_singleton call) ?_
      intro other before added
      obtain rfl := List.mem_singleton.mp added
      exact outside before

omit [DecidableEq E] in
theorem Permits.innerClose {total : Nat} {s : State P E M}
    (permits : Permits total s) (stage : Closing) :
    Permits total (s.innerClose stage).1 := by
  cases stage with
  | callback => exact permits
  | close => exact permits.congr rfl rfl rfl rfl rfl rfl
  | notify => exact permits.semNotify
  | clear => exact permits.congr rfl rfl rfl rfl rfl rfl

omit [DecidableEq E] in
theorem semNotify_frame (s : State P E M) :
    s.semNotify.start = s.start ∧ s.semNotify.read = s.read ∧
      s.semNotify.waitSem = s.waitSem ∧ s.semNotify.begun = s.begun := by
  unfold semNotify
  split <;> exact ⟨rfl, rfl, rfl, rfl⟩

omit [DecidableEq E] in
theorem innerClose_frame (s : State P E M) (stage : Closing) :
    (s.innerClose stage).1.start = s.start ∧
      (s.innerClose stage).1.read = s.read ∧
      (s.innerClose stage).1.waitSem = s.waitSem := by
  cases stage with
  | notify =>
      obtain ⟨start, read, waitSem, -⟩ := semNotify_frame s
      exact ⟨start, read, waitSem⟩
  | _ => exact ⟨rfl, rfl, rfl⟩

omit [DecidableEq E] in
theorem Permits.semNotify_write {total : Nat} {s : State P E M}
    (permits : Permits total s) {call : P} (running : s.write call ≠ .blocked) :
    s.semNotify.write call = s.write call := by
  unfold State.semNotify
  split
  · rfl
  · rename_i next waiters first
    have different : call ≠ next := by
      rintro rfl
      exact running (permits.blocked call (by rw [first]; exact List.mem_cons_self))
    exact Function.update_of_ne different _ _

omit [DecidableEq E] in
theorem Permits.innerClose_write {total : Nat} {s : State P E M}
    (permits : Permits total s) {call : P} (running : s.write call ≠ .blocked)
    (stage : Closing) :
    (s.innerClose stage).1.write call = s.write call := by
  cases stage with
  | notify => exact permits.semNotify_write running
  | _ => rfl

/-! Every step keeps the two permits. -/

omit [DecidableEq E] in
theorem Permits.start_keep {s : State P E M} (permits : Permits 2 s) {call : P}
    {pc : StartPc} (active : s.start call ≠ .ready)
    (early : (s.start call).spawned = false)
    (running : (s.start call).waits = false)
    (held : pc.held = (s.start call).held)
    (busy : (s.start call).busy = true) : Permits 2 (s.setStart call pc) := by
  apply permits.start_move active early
  · exact fun inside => absurd inside (permits.outside running)
  · rw [held]
  · exact fun _ => .inl busy

omit [DecidableEq E] in
theorem Permits.start_give {s : State P E M} (permits : Permits 2 s) {call : P}
    {pc : StartPc} (active : s.start call ≠ .ready)
    (early : (s.start call).spawned = false)
    (running : (s.start call).waits = false)
    (held : pc.held + 1 = (s.start call).held) (idle : pc.busy = false) :
    Permits 2 (s.setStart call pc).waitSemNotify := by
  apply Permits.waitSemNotify
  apply permits.start_move active early
  · exact fun inside => absurd inside (permits.outside running)
  · omega
  · rw [idle]
    nofun

omit [DecidableEq E] in
theorem Permits.start_closing {s : State P E M} (permits : Permits 2 s)
    {call : P} {stage : Closing} (pc : s.start call = .closing stage)
    {after : StartPc} (held : after.held = 2) :
    Permits 2 ((s.innerClose stage).1.setStart call after) := by
  have closed := permits.innerClose stage
  have place : (s.innerClose stage).1.start call = .closing stage := by
    rw [(innerClose_frame s stage).1, pc]
  apply closed.start_keep <;> rw [place]
  · nofun
  · rfl
  · rfl
  · exact held
  · rfl

omit [DecidableEq E] in
theorem Permits.enter {total : Nat} {s : State P E M} (permits : Permits total s)
    (call : P) : Permits total { s with begun := insert call s.begun } := by
  by_cases inside : call ∈ s.begun
  · exact permits.congr rfl rfl rfl rfl rfl (Finset.insert_eq_self.mpr inside)
  · obtain ⟨start, read, write⟩ := permits.begun call inside
    refine ⟨?_, ?_, permits.waiting, permits.distinct, permits.blocked,
      permits.queued, permits.read, permits.write, permits.alone⟩
    · have none : s.held call = 0 := by
        rw [held, start, read, write]
        rfl
      change s.waitSem.concurrency +
        ∑ other ∈ insert call s.begun, s.held other = total
      rw [Finset.sum_insert inside, none, Nat.zero_add]
      exact permits.sum
    · intro other outside
      exact permits.begun other fun before =>
        outside (Finset.mem_insert_of_mem before)

omit [DecidableEq E] in
theorem Permits.begin {s : State P E M} (permits : Permits 2 s) {call : P}
    (ready : s.start call = .ready) :
    Permits 2 { s.setStart call .wait with begun := insert call s.begun } := by
  have entered := permits.enter call
  obtain ⟨read, write⟩ := @Permits.unspawned _ _ _ _ _ permits call
    (by rw [ready]; rfl)
  apply entered.move (moves_setStart _ call .wait) (Finset.mem_insert_self _ _)
  · simp [held, ready, StartPc.held]
  · rintro (active | reads | writes)
    · simp [StartPc.busy] at active
    · exact .inl (.inr (.inl reads))
    · exact .inl (.inr (.inr writes))
  · exact fun inside =>
      absurd inside (permits.outside (by rw [ready]; rfl))
  · exact permits.blocked call
  · simp [read]
  · simp [write]

omit [DecidableEq E] in
theorem Permits.spawn_read {s : State P E M} (permits : Permits 2 s) {call : P}
    (pc : s.start call = .startRead) :
    Permits 2 ((s.setStart call .startWrite).setRead call .test) := by
  obtain ⟨read, write⟩ := @Permits.unspawned _ _ _ _ _ permits call
    (by rw [pc]; rfl)
  have moves : Moves s ((s.setStart call .startWrite).setRead call .test)
      call :=
    { moves_setStart s call .startWrite with
      read := fun _ different => Function.update_of_ne different _ _ }
  apply permits.move moves (permits.member (by rw [pc]; nofun))
  · simp [held, pc, read, StartPc.held, ReadPc.held]
  · intro _
    exact .inl (.inl (by rw [pc]; rfl))
  · exact fun inside => absurd inside (permits.outside (by rw [pc]; rfl))
  · exact permits.blocked call
  · simp [StartPc.spawned]
  · simp [write]

omit [DecidableEq E] in
theorem Permits.spawn_write {s : State P E M} (permits : Permits 2 s) {call : P}
    (pc : s.start call = .startWrite) :
    Permits 2 ((s.setStart call .done).setWrite call .test) := by
  have write : s.write call = .absent := by
    by_contra present
    have finished := permits.write call present
    rw [pc] at finished
    cases finished
  have moves : Moves s ((s.setStart call .done).setWrite call .test) call :=
    { moves_setStart s call .done with
      write := fun _ different => Function.update_of_ne different _ _ }
  apply permits.move moves (permits.member (by rw [pc]; nofun))
  · simp only [held, pc, write, setWrite_start, setStart_start, setWrite_read,
      setStart_read, setWrite_write, StartPc.held, WritePc.held]
    omega
  · intro _
    exact .inl (.inl (by rw [pc]; rfl))
  · exact fun inside => absurd inside (permits.outside (by rw [pc]; rfl))
  · intro waiting
    have blocked := permits.blocked call waiting
    rw [write] at blocked
    cases blocked
  · simp [StartPc.spawned]
  · simp

omit [DecidableEq E] in
theorem permits_start {s next : State P E M} {call : P} {outcome : Outcome}
    (permits : Permits 2 s) (taken : s.startStep call outcome = some next) :
    Permits 2 next := by
  unfold startStep at taken
  cases pc : s.start call with
  | ready =>
      simp only [pc] at taken
      cases taken
      exact permits.begin pc
  | wait =>
      simp only [pc] at taken
      cases taken
      apply permits.waitSemWait <;> first
        | rfl
        | (rw [pc]; rfl)
        | (rw [pc]; nofun)
        | nofun
  | waitSecond =>
      simp only [pc] at taken
      cases taken
      apply permits.waitSemWait <;> first
        | exact fun _ => rfl
        | rfl
        | (rw [pc]; rfl)
        | (rw [pc]; nofun)
  | owns =>
      simp only [pc] at taken
      cases taken
      split
      all_goals
        apply permits.start_keep <;> rw [pc] <;> first
          | rfl
          | nofun
  | reconnect =>
      simp only [pc] at taken
      split at taken <;> cases taken
      · have opened : Permits 2 s.connect :=
          permits.congr rfl rfl rfl rfl rfl rfl
        have place : s.connect.start call = .reconnect := pc
        apply opened.start_keep <;> rw [place] <;> first
          | rfl
          | nofun
      · apply permits.start_keep <;> rw [pc] <;> first
          | rfl
          | nofun
  | connectCb =>
      simp only [pc] at taken
      split at taken <;> cases taken
      all_goals
        apply permits.start_keep <;> rw [pc] <;> first
          | rfl
          | nofun
  | closing stage =>
      simp only [pc] at taken
      split at taken
      · cases taken
        apply permits.start_keep <;> rw [pc] <;> first
          | rfl
          | nofun
      · have closed : ∀ after : StartPc, after.held = 2 →
            Permits 2 ((s.innerClose stage).1.setStart call after) :=
          fun after => permits.start_closing pc
        cases stage <;> cases taken <;> exact closed _ rfl
  | giveFirst =>
      simp only [pc] at taken
      cases taken
      apply permits.start_give <;> first
        | rfl
        | (rw [pc]; rfl)
        | (rw [pc]; nofun)
  | giveSecond =>
      simp only [pc] at taken
      cases taken
      apply permits.start_give <;> first
        | rfl
        | (rw [pc]; rfl)
        | (rw [pc]; nofun)
  | startRead =>
      simp only [pc] at taken
      cases taken
      exact permits.spawn_read pc
  | startWrite =>
      simp only [pc] at taken
      cases taken
      exact permits.spawn_write pc
  | _ =>
      simp only [pc] at taken
      cases taken

omit [DecidableEq E] in
theorem Permits.read_closing {s : State P E M} (permits : Permits 2 s)
    {call : P} {stage : Closing} (present : s.read call ≠ .absent)
    (held : (s.read call).held = 1) {after : ReadPc} (keeps : after.held = 1) :
    Permits 2 ((s.innerClose stage).1.setRead call after) := by
  have place : (s.innerClose stage).1.read call = s.read call := by
    rw [(innerClose_frame s stage).2.1]
  apply (permits.innerClose stage).read_move <;> rw [place]
  · exact present
  · rw [held, keeps]
  · exact fun _ => held

omit [DecidableEq E] in
theorem permits_read {s next : State P E M} {call : P} {outcome : Outcome}
    (permits : Permits 2 s) (taken : s.readStep call outcome = some next) :
    Permits 2 next := by
  unfold readStep at taken
  cases pc : s.read call with
  | test =>
      simp only [pc] at taken
      cases taken
      split
      all_goals
        apply permits.read_move <;> simp [pc, ReadPc.held]
  | recv =>
      simp only [pc] at taken
      split at taken <;> cases taken
      all_goals
        apply permits.read_move <;> simp [pc, ReadPc.held]
  | recvClosing stage =>
      have closed : ∀ after : ReadPc, after.held = 1 →
          Permits 2 ((s.innerClose stage).1.setRead call after) :=
        fun after => permits.read_closing (by rw [pc]; nofun) (by rw [pc]; rfl)
      simp only [pc] at taken
      split at taken
      · cases taken
        apply permits.read_move <;> simp [pc, ReadPc.held]
      · cases stage <;> cases taken <;> exact closed _ rfl
  | closing stage =>
      have closed : ∀ after : ReadPc, after.held = 1 →
          Permits 2 ((s.innerClose stage).1.setRead call after) :=
        fun after => permits.read_closing (by rw [pc]; nofun) (by rw [pc]; rfl)
      simp only [pc] at taken
      split at taken
      · cases taken
        apply permits.read_move <;> simp [pc, ReadPc.held]
      · cases stage <;> cases taken <;> exact closed _ rfl
  | notify =>
      simp only [pc] at taken
      cases taken
      apply Permits.waitSemNotify
      apply permits.read_move <;> simp [pc, ReadPc.held]
  | tail =>
      simp only [pc] at taken
      cases taken
      apply permits.read_move <;> simp [pc, ReadPc.held]
  | _ =>
      simp only [pc] at taken
      cases taken

omit [DecidableEq E] in
theorem Permits.write_keep {s : State P E M} (permits : Permits 2 s) {call : P}
    {pc : WritePc M} (present : s.write call ≠ .absent)
    (running : s.write call ≠ .blocked) (held : (s.write call).held = 1)
    (keeps : pc.held = 1) : Permits 2 (s.setWrite call pc) := by
  apply permits.write_move present
  · exact fun waiting => absurd (permits.blocked call waiting) running
  · rw [held, keeps]
  · exact fun _ => held

omit [DecidableEq E] in
theorem permits_write {s next : State P E M} {call : P} {outcome : Outcome}
    (permits : Permits 2 s) (taken : s.writeStep call outcome = some next) :
    Permits 2 next := by
  unfold writeStep at taken
  cases pc : s.write call with
  | test =>
      simp only [pc] at taken
      cases taken
      split
      all_goals
        apply permits.write_keep <;> simp [pc, WritePc.held]
  | wait =>
      simp only [pc] at taken
      cases taken
      exact permits.semWait pc
  | swap =>
      simp only [pc] at taken
      cases taken
      have swapped : Permits 2 { s with queue := [] } :=
        permits.congr rfl rfl rfl rfl rfl rfl
      apply swapped.write_keep <;> simp [pc, WritePc.held]
  | send ctxs =>
      cases ctxs with
      | nil =>
          simp only [pc] at taken
          cases taken
          apply permits.write_keep <;> simp [pc, WritePc.held]
      | cons ctx ctxs =>
          have called : Permits 2 (s.send ctx) :=
            permits.congr rfl rfl rfl rfl rfl rfl
          have place : (s.send ctx).write call = .send (ctx :: ctxs) := pc
          simp only [pc] at taken
          split at taken <;> cases taken
          all_goals
            apply called.write_keep <;> simp [place, WritePc.held]
  | closing stage ctxs =>
      have running : s.write call ≠ .blocked := by
        rw [pc]
        nofun
      have place := permits.innerClose_write running stage
      have closed : ∀ after : WritePc M, after.held = 1 →
          Permits 2 ((s.innerClose stage).1.setWrite call after) := by
        intro after keeps
        apply (permits.innerClose stage).write_keep
        · simp [place, pc]
        · simp [place, pc]
        · simp [place, pc, WritePc.held]
        · exact keeps
      simp only [pc] at taken
      split at taken
      · cases taken
        apply permits.write_keep <;> simp [pc, WritePc.held]
      · cases stage <;> cases taken <;> exact closed _ rfl
  | clear =>
      simp only [pc] at taken
      cases taken
      have cleared : Permits 2 { s with queue := [] } :=
        permits.congr rfl rfl rfl rfl rfl rfl
      apply cleared.write_keep <;> simp [pc, WritePc.held]
  | notify =>
      simp only [pc] at taken
      cases taken
      apply Permits.waitSemNotify
      apply permits.write_move
      · simp [pc]
      · intro waiting
        have blocked := permits.blocked call waiting
        rw [pc] at blocked
        cases blocked
      · simp [pc, WritePc.held]
      · simp [WritePc.held]
  | _ =>
      simp only [pc] at taken
      cases taken

theorem permits_step {s next : State P E M} {action : Action P E M}
    (permits : Permits 2 s) (taken : s.step action = some next) :
    Permits 2 next := by
  cases action with
  | start call outcome => exact permits_start permits taken
  | read call outcome => exact permits_read permits taken
  | write call outcome => exact permits_write permits taken
  | enqueue call ctx =>
      unfold step at taken
      simp only at taken
      split at taken <;> cases taken
      exact permits.congr rfl rfl rfl rfl rfl rfl
  | notify call =>
      unfold step at taken
      simp only at taken
      split at taken <;> cases taken
      apply Permits.semNotify
      exact permits.congr rfl rfl rfl rfl rfl rfl
  | close =>
      cases taken
      exact permits.congr rfl rfl rfl rfl rfl rfl

omit [DecidableEq P] [DecidableEq E] in
theorem Initial.permits {s : State P E M} (initial : Initial s) :
    Permits 2 s where
  sum := by
    rw [initial.waitSem, initial.begun]
    rfl
  begun := fun call _ =>
    ⟨initial.start call, initial.read call, initial.write call⟩
  waiting := by
    rw [initial.waitSem]
    nofun
  distinct := by
    rw [initial.waitSem]
    exact List.nodup_nil
  blocked := by
    rw [initial.sem]
    nofun
  queued := by
    rw [initial.sem]
    exact List.nodup_nil
  read := fun call present => absurd (initial.read call) present
  write := fun call present => absurd (initial.write call) present
  alone := by
    intro call other busy
    rcases busy with started | reads | writes
    · rw [initial.start call] at started
      cases started
    · rw [initial.read call] at reads
      cases reads
    · rw [initial.write call] at writes
      cases writes

theorem permits_run {s : State P E M} (reached : Reach Initial (StepOf step) s) :
    Permits 2 s :=
  reached.invariant (fun _ initial => initial.permits)
    fun _ _ _ permits taken => permits_step permits taken

/-- The two permits of `m_waitSem` are free, or with a call of `start` that has
taken them and neither returned nor handed them over, or with a task that has
not returned its own. So one `doRead` and one `doWrite` at most have not
returned theirs, and neither has when a call is at `m_socket->reconnect`. -/
theorem one_reader_one_writer {s : State P E M}
    (reached : Reach Initial (StepOf step) s) :
    s.waitSem.concurrency + ∑ call ∈ s.begun, (s.start call).held +
        ∑ call ∈ s.begun, (s.read call).held +
        ∑ call ∈ s.begun, (s.write call).held = 2 ∧
      (∀ call, call ∉ s.begun → s.start call = .ready ∧
        s.read call = .absent ∧ s.write call = .absent) ∧
      (∀ call other, (s.read call).held = 1 → (s.read other).held = 1 →
        call = other) ∧
      (∀ call other, (s.write call).held = 1 → (s.write other).held = 1 →
        call = other) ∧
      ∀ call, s.start call = .reconnect → ∀ other,
        (s.read other).held = 0 ∧ (s.write other).held = 0 := by
  have permits := permits_run reached
  refine ⟨?_, permits.begun, ?_, ?_, ?_⟩
  · have sum := permits.sum
    simp only [held, Finset.sum_add_distrib] at sum
    omega
  · intro call other reads again
    exact permits.alone call other (.inr (.inl reads)) (.inr (.inl again))
  · intro call other writes again
    exact permits.alone call other (.inr (.inr writes)) (.inr (.inr again))
  · intro call place other
    have busy : s.Busy call := .inl (by rw [place]; rfl)
    have tasks := @Permits.unspawned _ _ _ _ _ permits call
      (by rw [place]; rfl)
    rcases eq_or_ne other call with rfl | different
    · rw [tasks.1, tasks.2]
      exact ⟨rfl, rfl⟩
    · have alone : ¬s.Busy other := fun active =>
        different (permits.alone other call active busy)
      constructor
      · have := fun reads => alone (.inr (.inl reads))
        cases pc : s.read other <;> first
          | rfl
          | exact absurd (by rw [pc]; rfl) this
      · have := fun writes => alone (.inr (.inr writes))
        cases pc : s.write other <;> first
          | rfl
          | exact absurd (by rw [pc]; rfl) this

def opening : State Nat Nat Nat where
  connected := false
  start := fun _ => .ready
  read := fun _ => .absent
  write := fun _ => .absent
  enqueue := fun _ => .ready
  waitSem := ⟨[], 2⟩
  sem := ⟨[], 0⟩
  queue := []
  begun := ∅
  pushed := []
  sent := []
  connectionPushed := []
  connectionSent := []

theorem opening_initial : Initial opening :=
  ⟨fun _ => rfl, fun _ => rfl, fun _ => rfl, rfl, rfl, rfl, rfl, fun _ => rfl,
    rfl, rfl, rfl, rfl⟩

def connecting (call : Nat) : List (Action Nat Nat Nat) :=
  List.replicate 8 (.start call .ok)

/-- Two calls of `start`; the second waits behind the first. -/
theorem one_reader_one_writer_second :
    ∃ s : State Nat Nat Nat, s.start 1 = .blocked ∧ s.read 0 = .test ∧
      (s.waitSem.concurrency + ∑ call ∈ s.begun, (s.start call).held +
        ∑ call ∈ s.begun, (s.read call).held +
        ∑ call ∈ s.begun, (s.write call).held = 2) := by
  obtain ⟨s, ran, blocked, reads⟩ : ∃ s, exec step opening
      (connecting 0 ++ [.start 1 .ok, .start 1 .ok]) = some s ∧
      s.start 1 = .blocked ∧ s.read 0 = .test := ⟨_, rfl, rfl, rfl⟩
  exact ⟨s, blocked, reads,
    (one_reader_one_writer (reach_exec (.start _ opening_initial) ran)).1⟩

/-- The exits of the tasks of a call, up to `m_timer`. -/
def exiting (call : Nat) : List (Action Nat Nat Nat) :=
  .close :: List.replicate 6 (.read call .ok) ++
    List.replicate 3 (.write call .ok)

/-- A `doRead` runs on when it has returned its permit: the next call is at
`m_socket->reconnect` and then has a `doRead` of its own. A disconnect callback
that throws takes the two permits of its call with it. -/
theorem one_reader_one_writer_tail :
    (∃ s : State Nat Nat Nat, Reach Initial (StepOf step) s ∧
      s.begun = {1, 0} ∧ s.waitSem.concurrency = 0 ∧ s.start 0 = .done ∧
      (s.read 0).alive = true ∧ s.write 0 = .done ∧ s.start 1 = .reconnect) ∧
    (∃ s : State Nat Nat Nat, Reach Initial (StepOf step) s ∧
      (s.read 0).alive = true ∧ (s.read 1).alive = true) ∧
    ∃ s : State Nat Nat Nat, Reach Initial (StepOf step) s ∧
      s.begun = {0} ∧ s.waitSem.concurrency = 0 ∧ s.start 0 = .thrown ∧
      (s.read 0).alive = false ∧ s.write 0 = .absent := by
  refine ⟨?_, ?_, ?_⟩
  · obtain ⟨s, ran, begun, free, done, reads, writes, place⟩ : ∃ s,
        exec step opening (connecting 0 ++ exiting 0 ++
          List.replicate 4 (.start 1 .ok)) = some s ∧
        s.begun = {1, 0} ∧ s.waitSem.concurrency = 0 ∧ s.start 0 = .done ∧
        (s.read 0).alive = true ∧ s.write 0 = .done ∧
        s.start 1 = .reconnect :=
      ⟨_, rfl, by decide, rfl, rfl, rfl, rfl, rfl⟩
    exact ⟨s, reach_exec (.start _ opening_initial) ran, begun, free, done,
      reads, writes, place⟩
  · obtain ⟨s, ran, reads, again⟩ : ∃ s,
        exec step opening (connecting 0 ++ exiting 0 ++ connecting 1) =
          some s ∧
        (s.read 0).alive = true ∧ (s.read 1).alive = true :=
      ⟨_, rfl, rfl, rfl⟩
    exact ⟨s, reach_exec (.start _ opening_initial) ran, reads, again⟩
  · obtain ⟨s, ran, begun, free, thrown, reads, writes⟩ : ∃ s,
        exec step opening (List.replicate 5 (.start 0 .ok) ++
          [.start 0 .fail, .start 0 .throw]) = some s ∧
        s.begun = {0} ∧ s.waitSem.concurrency = 0 ∧ s.start 0 = .thrown ∧
        (s.read 0).alive = false ∧ s.write 0 = .absent :=
      ⟨_, rfl, by decide, rfl, rfl, rfl, rfl⟩
    exact ⟨s, reach_exec (.start _ opening_initial) ran, begun, free, thrown,
      reads, writes⟩

end State

end Sylar.AsyncSocketStream.Lifecycle
