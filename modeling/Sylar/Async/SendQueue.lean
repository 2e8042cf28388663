import Sylar.Async.Permits

namespace Sylar.AsyncSocketStream.Lifecycle

open Logic Scheduler

/-! The way of a message from `enqueue` through `m_queue` and the list of the
writer to `doSend`, and the permits of `m_sem` that tell the writer about it. -/

variable {P E M : Type} [DecidableEq P] [DecidableEq E]

/-- `SocketStream::close` is done. -/
def Closing.closed : Closing → Bool
  | .notify => true
  | .clear => true
  | _ => false

/-- The caller of `innerClose` has closed the connection. -/
def StartPc.closed : StartPc → Bool
  | .closing stage => stage.closed
  | _ => false

def ReadPc.closed : ReadPc → Bool
  | .recvClosing stage => stage.closed
  | .closing stage => stage.closed
  | _ => false

/-- The writer has closed the connection, or has found it closed. -/
def WritePc.closed : WritePc M → Bool
  | .closing stage _ => stage.closed
  | .clear => true
  | _ => false

/-- What the writer has taken out of `m_queue` and not sent. -/
def WritePc.batch : WritePc M → List M
  | .send ctxs => ctxs
  | .closing _ ctxs => ctxs
  | _ => []

namespace State

/-- What has been taken out of `m_queue` and not sent: one writer has it. -/
inductive Unsent (write : P → WritePc M) : List M → Prop
  | idle (empty : ∀ call, (write call).batch = []) : Unsent write []
  | writer (call : P)
      (others : ∀ other, other ≠ call → (write other).batch = []) :
      Unsent write (write call).batch

/-- An exception reaches the `catch` of `doWrite`. -/
def caught (s : State P E M) : Action P E M → Bool
  | .write call .throw =>
      match s.write call with
      | .send (_ :: _) => true
      | .closing .callback _ => true
      | _ => false
  | _ => false

structure Queued (s : State P E M) : Prop where
  order : ∃ batch, Unsent s.write batch ∧
    (s.sent ++ batch ++ s.queue).Sublist s.pushed ∧
    (s.connected = true →
      s.connectionSent ++ batch ++ s.queue = s.connectionPushed)
  signalled : s.queue ≠ [] → 0 < s.sem.concurrency ∨
    (∃ call, s.enqueue call = .found) ∨ ∃ call, s.write call = .swap
  idle : s.sem.waiters ≠ [] → s.sem.concurrency = 0
  waits : ∀ call, s.write call = .blocked → call ∈ s.sem.waiters
  start : ∀ call, (s.start call).closed = true → s.connected = false
  read : ∀ call, (s.read call).closed = true → s.connected = false
  write : ∀ call, (s.write call).closed = true → s.connected = false

omit [DecidableEq P] in
theorem Unsent.congr {before after : P → WritePc M} {batch : List M}
    (unsent : Unsent before batch)
    (same : ∀ call, (after call).batch = (before call).batch) :
    Unsent after batch := by
  cases unsent with
  | idle empty => exact .idle fun call => (same call).trans (empty call)
  | writer call others =>
      rw [← same call]
      exact .writer call fun other different =>
        (same other).trans (others other different)

theorem held_of_batch {pc : WritePc M} (carries : pc.batch ≠ []) :
    pc.held = 1 := by
  cases pc <;> first
    | rfl
    | exact absurd rfl carries

omit [DecidableEq P] [DecidableEq E] in
/-- The other calls have no writer beside one that runs. -/
theorem Permits.others {total : Nat} {s : State P E M}
    (permits : Permits total s) {call : P} (runs : (s.write call).held = 1)
    (other : P) (different : other ≠ call) : (s.write other).batch = [] := by
  by_contra carries
  exact different (permits.alone other call
    (.inr (.inr (held_of_batch carries))) (.inr (.inr runs)))

omit [DecidableEq P] [DecidableEq E] in
theorem Permits.unsent {total : Nat} {s : State P E M}
    (permits : Permits total s) {call : P} (runs : (s.write call).held = 1)
    {batch : List M} (unsent : Unsent s.write batch) :
    batch = (s.write call).batch := by
  cases unsent with
  | idle empty => exact (empty call).symm
  | writer other others =>
      rcases eq_or_ne call other with rfl | different
      · rfl
      · rw [others call different]
        exact permits.others runs other (Ne.symm different)

omit [DecidableEq E] in
theorem Permits.unsent_update {total : Nat} {s : State P E M}
    (permits : Permits total s) {call : P} (runs : (s.write call).held = 1)
    (pc : WritePc M) : Unsent (Function.update s.write call pc) pc.batch := by
  have here : Unsent (Function.update s.write call pc)
      (Function.update s.write call pc call).batch := by
    refine .writer call fun other different => ?_
    rw [Function.update_of_ne different]
    exact permits.others runs other different
  rw [Function.update_self] at here
  exact here

omit [DecidableEq E] in
theorem Queued.waits_update {s : State P E M} (queued : Queued s) {call : P}
    {pc : WritePc M} (running : pc ≠ .blocked) (other : P)
    (blocked : Function.update s.write call pc other = .blocked) :
    other ∈ s.sem.waiters := by
  rcases eq_or_ne other call with rfl | different
  · rw [Function.update_self] at blocked
    exact absurd blocked running
  · rw [Function.update_of_ne different] at blocked
    exact queued.waits other blocked

omit [DecidableEq E] in
theorem Queued.signalled_update {s : State P E M} (queued : Queued s) {call : P}
    {pc : WritePc M} (taken : s.write call ≠ .swap) (waiting : s.queue ≠ []) :
    0 < s.sem.concurrency ∨ (∃ call, s.enqueue call = .found) ∨
      ∃ other, Function.update s.write call pc other = .swap := by
  rcases queued.signalled waiting with free | found | ⟨other, swaps⟩
  · exact .inl free
  · exact .inr (.inl found)
  · have different : other ≠ call := by
      rintro rfl
      exact taken swaps
    exact .inr (.inr ⟨other, (Function.update_of_ne different _ _).trans swaps⟩)

omit [DecidableEq E] in
theorem Queued.write_update {s : State P E M} (queued : Queued s) {call : P}
    {pc : WritePc M} (running : pc.closed = true → s.connected = false) (other : P)
    (closed : (Function.update s.write call pc other).closed = true) :
    s.connected = false := by
  rcases eq_or_ne other call with rfl | different
  · rw [Function.update_self] at closed
    exact running closed
  · rw [Function.update_of_ne different] at closed
    exact queued.write other closed

omit [DecidableEq E] in
/-- A writer without a list moves on around the wait. -/
theorem Queued.order_update {s : State P E M} (queued : Queued s) {call : P}
    {pc : WritePc M} (before : (s.write call).batch = []) (after : pc.batch = []) :
    ∃ batch, Unsent (Function.update s.write call pc) batch ∧
      (s.sent ++ batch ++ s.queue).Sublist s.pushed ∧
      (s.connected = true →
        s.connectionSent ++ batch ++ s.queue = s.connectionPushed) := by
  obtain ⟨batch, unsent, order⟩ := queued.order
  refine ⟨batch, unsent.congr ?_, order⟩
  intro other
  rcases eq_or_ne other call with rfl | different
  · rw [Function.update_self, before, after]
  · rw [Function.update_of_ne different]

/-! What the parts of a step do. -/

omit [DecidableEq E] in
theorem Queued.setStart {s : State P E M} (queued : Queued s) {call : P}
    {pc : StartPc} (closed : pc.closed = true → s.connected = false) :
    Queued (s.setStart call pc) := by
  refine { queued with start := ?_ }
  intro other
  rcases eq_or_ne other call with rfl | different
  · rw [setStart_start]
    exact closed
  · rw [(moves_setStart s call pc).start other different]
    exact queued.start other

omit [DecidableEq E] in
theorem Queued.setRead {s : State P E M} (queued : Queued s) {call : P}
    {pc : ReadPc} (closed : pc.closed = true → s.connected = false) :
    Queued (s.setRead call pc) := by
  refine { queued with read := ?_ }
  intro other
  rcases eq_or_ne other call with rfl | different
  · rw [setRead_read]
    exact closed
  · rw [(moves_setRead s call pc).read other different]
    exact queued.read other

omit [DecidableEq P] [DecidableEq E] in
theorem Queued.congr {s next : State P E M} (queued : Queued s)
    (start : next.start = s.start) (read : next.read = s.read)
    (write : next.write = s.write) (enqueue : next.enqueue = s.enqueue)
    (sem : next.sem = s.sem) (queue : next.queue = s.queue)
    (pushed : next.pushed = s.pushed) (sent : next.sent = s.sent)
    (connectionPushed : next.connectionPushed = s.connectionPushed)
    (connectionSent : next.connectionSent = s.connectionSent)
    (connected : next.connected = true → s.connected = true) :
    Queued next := by
  have closed : s.connected = false → next.connected = false := by
    intro before
    by_contra after
    rw [connected (Bool.eq_true_of_not_eq_false after)] at before
    cases before
  refine ⟨?_, ?_, ?_, ?_, ?_, ?_, ?_⟩
  · obtain ⟨batch, unsent, order, sums⟩ := queued.order
    rw [write, sent, queue, pushed, connectionSent, connectionPushed]
    exact ⟨batch, unsent, order, fun after => sums (connected after)⟩
  · rw [queue, sem, enqueue, write]
    exact queued.signalled
  · rw [sem]
    exact queued.idle
  · rw [write, sem]
    exact queued.waits
  · rw [start]
    exact fun call place => closed (queued.start call place)
  · rw [read]
    exact fun call place => closed (queued.read call place)
  · rw [write]
    exact fun call place => closed (queued.write call place)

omit [DecidableEq E] in
/-- A running writer goes on; it may drop its list on a closed connection. -/
theorem Queued.setWrite {s : State P E M} (queued : Queued s)
    (permits : Permits 2 s) {call : P} {pc : WritePc M}
    (runs : (s.write call).held = 1) (taken : s.write call ≠ .swap)
    (running : pc ≠ .blocked) (closed : pc.closed = true → s.connected = false)
    (kept : pc.batch.Sublist (s.write call).batch)
    (all : s.connected = true → pc.batch = (s.write call).batch) :
    Queued (s.setWrite call pc) := by
  refine ⟨?_, queued.signalled_update taken, queued.idle,
    queued.waits_update running, queued.start, queued.read,
    queued.write_update closed⟩
  obtain ⟨batch, unsent, order, sums⟩ := queued.order
  obtain rfl := permits.unsent runs unsent
  refine ⟨pc.batch, permits.unsent_update runs pc, ?_, ?_⟩
  · exact ((kept.append_left s.sent).append_right s.queue).trans order
  · intro connected
    rw [all connected]
    exact sums connected

omit [DecidableEq E] in
/-- The first `m_sem` waiter goes on to swap the queue. -/
theorem Queued.semNotify {s : State P E M} (queued : Queued s)
    (permits : Permits 2 s) : Queued s.semNotify := by
  unfold State.semNotify
  split
  · rename_i nobody
    refine ⟨queued.order, ?_, ?_, queued.waits, queued.start, queued.read,
      queued.write⟩
    · exact fun _ => .inl (Nat.succ_pos _)
    · exact fun waiting => absurd nobody waiting
  · rename_i next waiters first
    have blocked := permits.blocked next (by rw [first]; exact List.mem_cons_self)
    refine ⟨queued.order_update (by rw [blocked]; rfl) rfl, ?_, ?_, ?_,
      queued.start, queued.read, queued.write_update nofun⟩
    · exact fun _ => .inr (.inr ⟨next, Function.update_self _ _ _⟩)
    · exact fun _ => queued.idle (by rw [first]; nofun)
    · intro call waiting
      change Function.update s.write next .swap call = .blocked at waiting
      rcases eq_or_ne call next with rfl | different
      · rw [Function.update_self] at waiting
        cases waiting
      · rw [Function.update_of_ne different] at waiting
        have inside := queued.waits call waiting
        rw [first] at inside
        exact List.mem_of_ne_of_mem different inside

omit [DecidableEq P] [DecidableEq E] in
theorem Queued.clear {s : State P E M} (queued : Queued s)
    (closed : s.connected = false) : Queued { s with queue := [] } := by
  refine { queued with order := ?_, signalled := fun waiting => absurd rfl waiting }
  obtain ⟨batch, unsent, order, -⟩ := queued.order
  refine ⟨batch, unsent, ?_, ?_⟩
  · rw [List.append_nil]
    exact (List.sublist_append_left _ _).trans order
  · intro connected
    rw [closed] at connected
    cases connected

omit [DecidableEq E] in
theorem Queued.innerClose {s : State P E M} (queued : Queued s)
    (permits : Permits 2 s) {stage : Closing}
    (closed : stage.closed = true → s.connected = false) :
    Queued (s.innerClose stage).1 := by
  cases stage with
  | callback => exact queued
  | close => exact queued.congr rfl rfl rfl rfl rfl rfl rfl rfl rfl rfl nofun
  | notify => exact queued.semNotify permits
  | clear => exact queued.clear (closed rfl)

omit [DecidableEq E] in
theorem innerClose_connected (s : State P E M) {stage next : Closing}
    (closed : stage.closed = true → s.connected = false)
    (after : (s.innerClose stage).2 = some next) :
    next.closed = true → (s.innerClose stage).1.connected = false := by
  intro late
  cases stage with
  | callback =>
      cases after
      cases late
  | close => rfl
  | notify =>
      have frame : s.semNotify.connected = s.connected := by
        unfold State.semNotify
        split <;> rfl
      exact frame.trans (closed rfl)
  | clear => cases after

omit [DecidableEq E] in
theorem Queued.semWait {s : State P E M} (queued : Queued s) {call : P}
    (place : s.write call = .wait) : Queued (s.semWait call) := by
  have before : (s.write call).batch = [] := by
    rw [place]
    rfl
  have running : s.write call ≠ .swap := by
    rw [place]
    nofun
  unfold State.semWait
  split
  · rename_i free
    refine ⟨queued.order_update before rfl, ?_, ?_, queued.waits_update nofun,
      queued.start, queued.read, queued.write_update nofun⟩
    · exact fun _ => .inr (.inr ⟨call, Function.update_self _ _ _⟩)
    · intro waiting
      rw [queued.idle waiting] at free
      cases free
  · rename_i none
    refine ⟨queued.order_update before rfl, queued.signalled_update running, ?_,
      ?_, queued.start, queued.read, queued.write_update nofun⟩
    · exact fun _ => Nat.eq_zero_of_not_pos none
    · intro other blocked
      rcases eq_or_ne other call with rfl | different
      · exact List.mem_append_right _ List.mem_cons_self
      · change Function.update s.write call .blocked other = .blocked at blocked
        rw [Function.update_of_ne different] at blocked
        exact List.mem_append_left _ (queued.waits other blocked)

omit [DecidableEq P] [DecidableEq E] in
/-- At a reconnect nobody has a list of messages or is about to clear the
queue. -/
theorem Queued.connect {s : State P E M} (queued : Queued s)
    (permits : Permits 2 s) {call : P} (place : s.start call = .reconnect) :
    Queued s.connect := by
  have busy : s.Busy call := .inl (by rw [place]; rfl)
  have tasks := @Permits.unspawned _ _ _ _ _ permits call
    (by rw [place]; rfl)
  have alone : ∀ other, other ≠ call → ¬s.Busy other := fun other different active =>
    different (permits.alone other call active busy)
  have empty : ∀ other, (s.write other).batch = [] := by
    intro other
    rcases eq_or_ne other call with rfl | different
    · rw [tasks.2]
      rfl
    · by_contra carries
      exact alone other different (.inr (.inr (held_of_batch carries)))
  obtain ⟨batch, unsent, order, -⟩ := queued.order
  have none : batch = [] := by
    cases unsent with
    | idle => rfl
    | writer other => exact empty other
  subst none
  refine ⟨⟨[], .idle empty, order, fun _ => rfl⟩, queued.signalled, queued.idle,
    queued.waits, ?_, ?_, ?_⟩
  · intro other closed
    change (s.start other).closed = true at closed
    rcases eq_or_ne other call with rfl | different
    · rw [place] at closed
      cases closed
    · cases pc : s.start other <;> rw [pc] at closed <;> first
        | exact absurd (.inl (by rw [pc]; rfl)) (alone other different)
        | cases closed
  · intro other closed
    change (s.read other).closed = true at closed
    rcases eq_or_ne other call with rfl | different
    · rw [tasks.1] at closed
      cases closed
    · cases pc : s.read other <;> rw [pc] at closed <;> first
        | exact absurd (.inr (.inl (by rw [pc]; rfl))) (alone other different)
        | cases closed
  · intro other closed
    change (s.write other).closed = true at closed
    rcases eq_or_ne other call with rfl | different
    · rw [tasks.2] at closed
      cases closed
    · cases pc : s.write other <;> rw [pc] at closed <;> first
        | exact absurd (.inr (.inr (by rw [pc]; rfl))) (alone other different)
        | cases closed

omit [DecidableEq E] in
theorem Queued.waitSemWait {s : State P E M} (queued : Queued s) (call : P)
    {taken queues : StartPc} (open' : taken.closed = false)
    (still : queues.closed = false) :
    Queued (s.waitSemWait call taken queues) := by
  unfold State.waitSemWait
  split
  · apply Queued.setStart
    · exact queued.congr rfl rfl rfl rfl rfl rfl rfl rfl rfl rfl id
    · rw [open']
      nofun
  · apply Queued.setStart
    · exact queued.congr rfl rfl rfl rfl rfl rfl rfl rfl rfl rfl id
    · rw [still]
      nofun

omit [DecidableEq E] in
theorem Queued.waitSemNotify {s : State P E M} (queued : Queued s) :
    Queued s.waitSemNotify := by
  unfold State.waitSemNotify
  split
  · exact queued.congr rfl rfl rfl rfl rfl rfl rfl rfl rfl rfl id
  · rename_i next waiters first
    have popped : Queued { s with
        waitSem := { s.waitSem with waiters := waiters } } :=
      queued.congr rfl rfl rfl rfl rfl rfl rfl rfl rfl rfl id
    apply popped.setStart
    intro closed
    apply queued.start next
    cases pc : s.start next <;> rw [pc] at closed <;> exact closed

omit [DecidableEq E] in
theorem Queued.spawn_write {s : State P E M} (queued : Queued s) {call : P}
    (absent : s.write call = .absent) : Queued (s.setWrite call .test) := by
  refine ⟨queued.order_update ?_ rfl, queued.signalled_update ?_, queued.idle,
    queued.waits_update nofun, queued.start, queued.read,
    queued.write_update nofun⟩
  · rw [absent]
    rfl
  · rw [absent]
    nofun

omit [DecidableEq E] in
theorem Queued.swap {s : State P E M} (queued : Queued s)
    (permits : Permits 2 s) {call : P} (place : s.write call = .swap) :
    Queued ({ s with queue := [] }.setWrite call (.send s.queue)) := by
  have runs : (s.write call).held = 1 := by
    rw [place]
    rfl
  refine ⟨⟨s.queue, permits.unsent_update runs (.send s.queue), ?_⟩,
    fun waiting => absurd rfl waiting, queued.idle, queued.waits_update nofun,
    queued.start, queued.read, queued.write_update nofun⟩
  obtain ⟨batch, unsent, order, sums⟩ := queued.order
  obtain rfl := permits.unsent runs unsent
  rw [place] at order sums
  simp only [WritePc.batch, List.append_nil] at order sums
  simp only [State.setWrite, List.append_nil]
  exact ⟨order, sums⟩

omit [DecidableEq E] in
/-- `doSend` is called on the first message of the list. -/
theorem Queued.send {s : State P E M} (queued : Queued s)
    (permits : Permits 2 s) {call : P} {ctx : M} {ctxs : List M} {pc : WritePc M}
    (place : s.write call = .send (ctx :: ctxs)) (running : pc ≠ .blocked)
    (closed : pc.closed = true → s.connected = false)
    (kept : pc.batch.Sublist ctxs) (all : s.connected = true → pc.batch = ctxs) :
    Queued ((s.send ctx).setWrite call pc) := by
  have runs : (s.write call).held = 1 := by
    rw [place]
    rfl
  have taken : s.write call ≠ .swap := by
    rw [place]
    nofun
  refine ⟨⟨pc.batch, permits.unsent_update runs pc, ?_⟩,
    queued.signalled_update taken, queued.idle, queued.waits_update running,
    queued.start, queued.read, queued.write_update closed⟩
  obtain ⟨batch, unsent, order, sums⟩ := queued.order
  obtain rfl := permits.unsent runs unsent
  have first : (s.write call).batch = [ctx] ++ ctxs := by
    rw [place]
    rfl
  rw [first, ← List.append_assoc] at order sums
  constructor
  · exact ((kept.append_left _).append_right _).trans order
  · intro connected
    rw [all connected]
    exact sums connected

omit [DecidableEq E] in
theorem Queued.write_closing {s : State P E M} (queued : Queued s)
    (permits : Permits 2 s) {call : P} {stage : Closing} {ctxs : List M}
    (pc : s.write call = .closing stage ctxs) {after : WritePc M}
    (running : after ≠ .blocked)
    (closed : after.closed = true → (s.innerClose stage).1.connected = false)
    (kept : after.batch.Sublist ctxs)
    (all : (s.innerClose stage).1.connected = true → after.batch = ctxs) :
    Queued ((s.innerClose stage).1.setWrite call after) := by
  have early : stage.closed = true → s.connected = false := by
    intro late
    apply queued.write call
    rw [pc]
    exact late
  have place : (s.innerClose stage).1.write call = .closing stage ctxs := by
    rw [permits.innerClose_write (by rw [pc]; nofun), pc]
  apply (queued.innerClose permits early).setWrite (permits.innerClose stage)
  · rw [place]
    rfl
  · rw [place]
    nofun
  · exact running
  · exact closed
  · rw [place]
    exact kept
  · rw [place]
    exact all

/-! Every step keeps the way of the messages. -/

omit [DecidableEq E] in
theorem queued_start {s next : State P E M} {call : P} {outcome : Outcome}
    (queued : Queued s) (permits : Permits 2 s)
    (taken : s.startStep call outcome = some next) : Queued next := by
  unfold startStep at taken
  cases pc : s.start call with
  | ready =>
      simp only [pc] at taken
      cases taken
      have moved : Queued (s.setStart call .wait) := queued.setStart nofun
      exact moved.congr rfl rfl rfl rfl rfl rfl rfl rfl rfl rfl id
  | wait =>
      simp only [pc] at taken
      cases taken
      exact queued.waitSemWait call rfl rfl
  | waitSecond =>
      simp only [pc] at taken
      cases taken
      exact queued.waitSemWait call rfl rfl
  | owns =>
      simp only [pc] at taken
      cases taken
      split <;> exact queued.setStart nofun
  | reconnect =>
      simp only [pc] at taken
      split at taken <;> cases taken
      · exact (queued.connect permits pc).setStart nofun
      · exact queued.setStart nofun
  | connectCb =>
      simp only [pc] at taken
      split at taken <;> cases taken
      all_goals exact queued.setStart nofun
  | closing stage =>
      have early : stage.closed = true → s.connected = false := by
        intro closed
        apply queued.start call
        rw [pc]
        exact closed
      have closed := queued.innerClose permits early
      have late : ∀ next, (s.innerClose stage).2 = some next →
          next.closed = true → (s.innerClose stage).1.connected = false :=
        fun next => innerClose_connected s early
      simp only [pc] at taken
      split at taken
      · cases taken
        exact queued.setStart nofun
      · cases stage <;> cases taken <;> first
          | exact closed.setStart (late _ rfl)
          | exact closed.setStart nofun
  | giveFirst =>
      simp only [pc] at taken
      cases taken
      apply Queued.waitSemNotify
      exact queued.setStart nofun
  | giveSecond =>
      simp only [pc] at taken
      cases taken
      apply Queued.waitSemNotify
      exact queued.setStart nofun
  | startRead =>
      simp only [pc] at taken
      cases taken
      apply Queued.setRead
      · exact queued.setStart nofun
      · nofun
  | startWrite =>
      simp only [pc] at taken
      cases taken
      have absent : s.write call = .absent := by
        by_contra present
        have finished := permits.write call present
        rw [pc] at finished
        cases finished
      apply Queued.spawn_write
      · exact queued.setStart nofun
      · exact absent
  | _ =>
      simp only [pc] at taken
      cases taken

omit [DecidableEq E] in
theorem queued_read {s next : State P E M} {call : P} {outcome : Outcome}
    (queued : Queued s) (permits : Permits 2 s)
    (taken : s.readStep call outcome = some next) : Queued next := by
  unfold readStep at taken
  cases pc : s.read call with
  | test =>
      simp only [pc] at taken
      cases taken
      split <;> exact queued.setRead nofun
  | recv =>
      simp only [pc] at taken
      split at taken <;> cases taken
      all_goals exact queued.setRead nofun
  | recvClosing stage =>
      have early : stage.closed = true → s.connected = false := by
        intro closed
        apply queued.read call
        rw [pc]
        exact closed
      have closed := queued.innerClose permits early
      have late : ∀ next, (s.innerClose stage).2 = some next →
          next.closed = true → (s.innerClose stage).1.connected = false :=
        fun next => innerClose_connected s early
      simp only [pc] at taken
      split at taken
      · cases taken
        exact queued.setRead nofun
      · cases stage <;> cases taken <;> first
          | exact closed.setRead (late _ rfl)
          | exact closed.setRead nofun
  | closing stage =>
      have early : stage.closed = true → s.connected = false := by
        intro closed
        apply queued.read call
        rw [pc]
        exact closed
      have closed := queued.innerClose permits early
      have late : ∀ next, (s.innerClose stage).2 = some next →
          next.closed = true → (s.innerClose stage).1.connected = false :=
        fun next => innerClose_connected s early
      simp only [pc] at taken
      split at taken
      · cases taken
        exact queued.setRead nofun
      · cases stage <;> cases taken <;> first
          | exact closed.setRead (late _ rfl)
          | exact closed.setRead nofun
  | notify =>
      simp only [pc] at taken
      cases taken
      apply Queued.waitSemNotify
      exact queued.setRead nofun
  | tail =>
      simp only [pc] at taken
      cases taken
      exact queued.setRead nofun
  | _ =>
      simp only [pc] at taken
      cases taken

omit [DecidableEq E] in
theorem queued_write {s next : State P E M} {call : P} {outcome : Outcome}
    (queued : Queued s) (permits : Permits 2 s)
    (intact : s.connected = true → s.caught (.write call outcome) = false)
    (taken : s.writeStep call outcome = some next) : Queued next := by
  unfold writeStep at taken
  cases pc : s.write call with
  | test =>
      simp only [pc] at taken
      cases taken
      split
      · apply queued.setWrite permits <;> simp [pc, WritePc.held, WritePc.batch,
          WritePc.closed]
      · rename_i closed
        apply queued.setWrite permits <;> simp [pc, WritePc.held, WritePc.batch,
          closed]
  | wait =>
      simp only [pc] at taken
      cases taken
      exact queued.semWait pc
  | swap =>
      simp only [pc] at taken
      cases taken
      exact queued.swap permits pc
  | send ctxs =>
      cases ctxs with
      | nil =>
          simp only [pc] at taken
          cases taken
          apply queued.setWrite permits <;> simp [pc, WritePc.held,
            WritePc.batch, WritePc.closed]
      | cons ctx ctxs =>
          simp only [pc] at taken
          cases outcome with
          | ok =>
              cases taken
              exact queued.send permits pc (by simp) (by simp [WritePc.closed])
                (List.Sublist.refl _) fun _ => rfl
          | fail =>
              cases taken
              exact queued.send permits pc (by simp)
                (by simp [WritePc.closed, Closing.closed])
                (List.Sublist.refl _) fun _ => rfl
          | throw =>
              cases taken
              have closed : s.connected = false := by
                simpa [caught, pc] using intact
              apply queued.send permits pc
              · simp
              · exact fun _ => closed
              · exact List.nil_sublist _
              · simp [closed]
  | closing stage ctxs =>
      have early : stage.closed = true → s.connected = false := by
        intro closed
        apply queued.write call
        rw [pc]
        exact closed
      simp only [pc] at taken
      split at taken
      · rename_i thrown
        cases taken
        have lost : s.connected = false := by
          rw [thrown.1] at pc
          simpa [caught, pc, thrown.2] using intact
        apply queued.setWrite permits <;> simp [pc, lost, WritePc.held,
          WritePc.batch]
      · have goes : ∀ next, (s.innerClose stage).2 = some next →
            Queued ((s.innerClose stage).1.setWrite call (.closing next ctxs)) :=
          fun next after => queued.write_closing permits pc (by simp)
            (innerClose_connected s early after) (List.Sublist.refl _)
            fun _ => rfl
        cases stage with
        | clear =>
            cases taken
            have lost : s.connected = false := early rfl
            apply queued.write_closing permits pc
            · simp
            · simp [WritePc.closed]
            · exact List.nil_sublist _
            · change s.connected = true → _
              simp [lost]
        | _ =>
            cases taken
            exact goes _ rfl
  | clear =>
      have closed : s.connected = false := by
        apply queued.write call
        rw [pc]
        rfl
      simp only [pc] at taken
      cases taken
      have cleared : Permits 2 { s with queue := [] } :=
        permits.congr rfl rfl rfl rfl rfl rfl
      apply (queued.clear closed).setWrite cleared <;> simp [pc, WritePc.held,
        WritePc.batch, WritePc.closed]
  | notify =>
      simp only [pc] at taken
      cases taken
      apply Queued.waitSemNotify
      apply queued.setWrite permits <;> simp [pc, WritePc.held, WritePc.batch,
        WritePc.closed]
  | _ =>
      simp only [pc] at taken
      cases taken

omit [DecidableEq P] in
theorem Queued.enqueue {s : State P E M} (queued : Queued s) {call : E} (ctx : M)
    (ready : s.enqueue call = .ready) :
    Queued ({ s with
      queue := s.queue ++ [ctx]
      pushed := s.pushed ++ [ctx]
      connectionPushed := s.connectionPushed ++ [ctx] }.setEnqueue call
        (if s.queue.isEmpty then .found else .done)) := by
  refine ⟨?_, ?_, queued.idle, queued.waits, queued.start, queued.read,
    queued.write⟩
  · obtain ⟨batch, unsent, order, sums⟩ := queued.order
    refine ⟨batch, unsent, ?_, ?_⟩
    · change (s.sent ++ batch ++ (s.queue ++ [ctx])).Sublist (s.pushed ++ [ctx])
      rw [← List.append_assoc]
      exact order.append_right [ctx]
    · intro connected
      change s.connectionSent ++ batch ++ (s.queue ++ [ctx]) =
        s.connectionPushed ++ [ctx]
      rw [← List.append_assoc, sums connected]
  · intro _
    rcases eq_or_ne s.queue [] with empty | waiting
    · refine .inr (.inl ⟨call, ?_⟩)
      refine (Function.update_self _ _ _).trans ?_
      rw [empty]
      rfl
    · rcases queued.signalled waiting with free | ⟨other, found⟩ | swaps
      · exact .inl free
      · have different : other ≠ call := by
          rintro rfl
          rw [ready] at found
          cases found
        exact .inr (.inl ⟨other, (Function.update_of_ne different _ _).trans found⟩)
      · exact .inr (.inr swaps)

theorem Queued.notify {s : State P E M} (queued : Queued s)
    (permits : Permits 2 s) (call : E) :
    Queued (s.setEnqueue call .done).semNotify := by
  have after := queued.semNotify permits
  have signals : 0 < s.semNotify.sem.concurrency ∨
      ∃ call, s.semNotify.write call = .swap := by
    unfold State.semNotify
    split
    · exact .inl (Nat.succ_pos _)
    · rename_i next waiters first
      exact .inr ⟨next, Function.update_self _ _ _⟩
  have same : (s.setEnqueue call .done).semNotify =
      s.semNotify.setEnqueue call .done := by
    cases first : s.sem.waiters <;>
      simp only [State.semNotify, State.setEnqueue, State.setWrite, first]
  rw [same]
  refine ⟨after.order, ?_, after.idle, after.waits, after.start, after.read,
    after.write⟩
  rintro -
  rcases signals with free | swaps
  · exact .inl free
  · exact .inr (.inr swaps)

theorem queued_step {s next : State P E M} {action : Action P E M}
    (queued : Queued s) (permits : Permits 2 s)
    (intact : s.connected = true → s.caught action = false)
    (taken : s.step action = some next) : Queued next := by
  cases action with
  | start call outcome => exact queued_start queued permits taken
  | read call outcome => exact queued_read queued permits taken
  | write call outcome => exact queued_write queued permits intact taken
  | enqueue call ctx =>
      cases pc : s.enqueue call with
      | ready =>
          simp only [step, pc] at taken
          cases taken
          exact queued.enqueue ctx pc
      | _ =>
          simp only [step, pc] at taken
          cases taken
  | notify call =>
      cases pc : s.enqueue call with
      | found =>
          simp only [step, pc] at taken
          cases taken
          exact queued.notify permits call
      | _ =>
          simp only [step, pc] at taken
          cases taken
  | close =>
      cases taken
      exact queued.congr rfl rfl rfl rfl rfl rfl rfl rfl rfl rfl nofun

omit [DecidableEq P] [DecidableEq E] in
theorem Initial.queued {s : State P E M} (initial : Initial s) : Queued s where
  order := by
    refine ⟨[], .idle ?_, ?_, ?_⟩
    · intro call
      rw [initial.write call]
      rfl
    · rw [initial.sent, initial.queue]
      exact List.nil_sublist _
    · intro _
      rw [initial.connectionSent, initial.queue, initial.connectionPushed]
      rfl
  signalled := fun waiting => absurd initial.queue waiting
  idle := by
    rw [initial.sem]
    exact fun _ => rfl
  waits := by
    intro call blocked
    rw [initial.write call] at blocked
    cases blocked
  start := by
    intro call closed
    rw [initial.start call] at closed
    cases closed
  read := by
    intro call closed
    rw [initial.read call] at closed
    cases closed
  write := by
    intro call closed
    rw [initial.write call] at closed
    cases closed

/-- No exception leaves the loop of `doWrite` while the connection is open. -/
def Intact (s : State P E M) (action : Action P E M) : Prop :=
  s.connected = true → s.caught action = false

instance (s : State P E M) (action : Action P E M) :
    Decidable (Intact s action) :=
  inferInstanceAs (Decidable (_ → _))

theorem queued_run {s : State P E M}
    (reached : Reach Initial (StepWhen step Intact) s) :
    Permits 2 s ∧ Queued s := by
  refine @Reach.invariant _ _ _ _ (fun s => Permits 2 s ∧ Queued s) ?_ ?_ s
    reached
  · exact fun s initial => ⟨initial.permits, initial.queued⟩
  · rintro s action next ⟨permits, queued⟩ ⟨intact, taken⟩
    exact ⟨permits_step permits taken, queued_step queued permits intact taken⟩

/-- A writer that does not wait goes on, however its call of `doSend` or of the
disconnect callback ends. -/
theorem write_steps (s : State P E M) {call : P} (outcome : Outcome)
    (absent : s.write call ≠ .absent) (blocked : s.write call ≠ .blocked)
    (done : s.write call ≠ .done) : (s.step (.write call outcome)).isSome = true := by
  change (s.writeStep call outcome).isSome = true
  unfold writeStep
  cases here : s.write call with
  | absent => exact absurd here absent
  | blocked => exact absurd here blocked
  | done => exact absurd here done
  | send ctxs =>
      cases ctxs with
      | nil => rfl
      | cons ctx ctxs => cases outcome <;> rfl
  | closing stage ctxs => cases stage <;> cases outcome <;> rfl
  | _ => rfl

/-- What `doSend` was called on, what the writer has and what is in `m_queue` are
of what was pushed, in its order; while a connection is open they are all that
was pushed for it. A writer waits only at an empty queue, or before a call that
is about to notify it, and goes on wherever it does not wait. -/
theorem send_queue {s : State P E M}
    (reached : Reach Initial (StepWhen step Intact) s) :
    (∃ batch, Unsent s.write batch ∧
      (s.sent ++ batch ++ s.queue).Sublist s.pushed ∧
      (s.connected = true →
        s.connectionSent ++ batch ++ s.queue = s.connectionPushed)) ∧
    (∀ call, s.write call = .blocked →
      s.queue = [] ∨ ∃ sender, s.enqueue sender = .found) ∧
    ∀ call outcome, s.write call ≠ .absent → s.write call ≠ .blocked →
      s.write call ≠ .done → (s.step (.write call outcome)).isSome = true := by
  obtain ⟨permits, queued⟩ := queued_run reached
  refine ⟨queued.order, ?_, fun call outcome => s.write_steps outcome⟩
  intro call blocked
  rcases eq_or_ne s.queue [] with empty | waiting
  · exact .inl empty
  · right
    have member := queued.waits call blocked
    rcases queued.signalled waiting with free | found | ⟨other, swaps⟩
    · rw [queued.idle (List.ne_nil_of_mem member)] at free
      cases free
    · exact found
    · have same := permits.alone call other
        (.inr (.inr (by rw [blocked]; rfl))) (.inr (.inr (by rw [swaps]; rfl)))
      rw [same, swaps] at blocked
      cases blocked

/-- The writer is blocked and the first call has not notified it. -/
theorem send_queue_blocked :
    ∃ s : State Nat Nat Nat, s.write 0 = .blocked ∧ s.queue = [5] ∧
      (s.queue = [] ∨ ∃ sender, s.enqueue sender = .found) := by
  obtain ⟨s, ran, blocked, queue⟩ : ∃ s, exec (guarded step Intact) opening
      (connecting 0 ++ [.write 0 .ok, .write 0 .ok, .enqueue 0 5]) = some s ∧
      s.write 0 = .blocked ∧ s.queue = [5] := ⟨_, rfl, rfl, rfl⟩
  exact ⟨s, blocked, queue,
    (send_queue (reach_guarded (.start _ opening_initial) ran)).2.1 0 blocked⟩

/-- `doSend` throws on the first of two messages: the second is gone and the
connection is still open. -/
theorem send_queue_throw :
    ∃ s : State Nat Nat Nat, Reach Initial (StepOf step) s ∧
      s.connected = true ∧ s.connectionPushed = [1, 2] ∧
      s.connectionSent = [1] ∧ s.queue = [] ∧
      ∀ call, (s.write call).batch = [] := by
  obtain ⟨s, ran, connected, pushed, sent, queue, begun, done⟩ : ∃ s,
      exec step opening (connecting 0 ++ [.write 0 .ok, .write 0 .ok,
        .enqueue 0 1, .enqueue 1 2, .notify 0, .write 0 .ok, .write 0 .throw,
        .write 0 .ok, .write 0 .ok]) = some s ∧
      s.connected = true ∧ s.connectionPushed = [1, 2] ∧
      s.connectionSent = [1] ∧ s.queue = [] ∧ s.begun = {0} ∧
      s.write 0 = .done := ⟨_, rfl, rfl, rfl, rfl, rfl, by decide, rfl⟩
  have reached := reach_exec (.start _ opening_initial) ran
  refine ⟨s, reached, connected, pushed, sent, queue, ?_⟩
  intro call
  rcases eq_or_ne call 0 with rfl | different
  · rw [done]
    rfl
  · have outside : call ∉ s.begun := by
      rw [begun, Finset.mem_singleton]
      exact different
    rw [((permits_run reached).begun call outside).2.2]
    rfl

end State

end Sylar.AsyncSocketStream.Lifecycle
