import Sylar.IOManager.Wake

namespace Sylar.IOManager.DoSocket

open Logic

/-! A receiving and a sending fiber on one connected socket. Both wrappers pass
`READ`, so the two calls collide when they are outstanding together. -/

variable {P F W C : Type} [DecidableEq P] [DecidableEq F] [DecidableEq W]
  [DecidableEq C] [Fintype F] {s t : State P F W C}

/-- No two fibers have an operation outstanding on one event. -/
def Exclusive (s : State P F W C) : Prop :=
  ∀ fiber other stage also call second,
    s.frame fiber = .inside stage call → s.frame other = .inside also second →
    call.event = second.event → call.woken = false → second.woken = false →
    fiber = other

/-- A call goes pending only when no other fiber has an operation outstanding on
its event. -/
def Alone (s : State P F W C) : Action P F W → Prop
  | .issue fiber event _ _ .pending => ∀ other, other ≠ fiber →
      ∀ call ∈ (s.frame other).call, call.event = event → call.woken = true
  | _ => True

instance (s : State P F W C) : (action : Action P F W) → Decidable (Alone s action)
  | .issue fiber event _ _ .pending => inferInstanceAs (Decidable (∀ other,
      other ≠ fiber → ∀ call ∈ (s.frame other).call, call.event = event →
        call.woken = true))
  | .issue _ _ _ _ (.completed _ _) => inferInstanceAs (Decidable True)
  | .issue _ _ _ _ .failed => inferInstanceAs (Decidable True)
  | .run _ => inferInstanceAs (Decidable True)
  | .complete _ _ _ => inferInstanceAs (Decidable True)
  | .dequeue _ => inferInstanceAs (Decidable True)
  | .dispatch _ => inferInstanceAs (Decidable True)
  | .expire _ => inferInstanceAs (Decidable True)
  | .timeout _ => inferInstanceAs (Decidable True)

omit [DecidableEq P] [DecidableEq F] [DecidableEq W] [DecidableEq C] [Fintype F] in
theorem Exclusive.of_known (exclusive : Exclusive s)
    (known : ∀ fiber stage call, t.frame fiber = .inside stage call →
      ∃ also before, s.frame fiber = .inside also before ∧
        call.event = before.event ∧ (before.woken = true → call.woken = true)) :
    Exclusive t := by
  intro fiber other stage also call second inside again event one two
  obtain ⟨_, before, first, left, woken⟩ := known fiber stage call inside
  obtain ⟨_, after, last, right, woke⟩ := known other also second again
  refine exclusive fiber other _ _ before after first last
    (left.symm.trans (event.trans right)) ?_ ?_
  · by_contra set
    rw [woken (by simpa using set)] at one
    cases one
  · by_contra set
    rw [woke (by simpa using set)] at two
    cases two

omit [DecidableEq P] [DecidableEq W] [DecidableEq C] [Fintype F] in
theorem Exclusive.move (exclusive : Exclusive s) {fiber : F} {frame : Frame P}
    (same : ∀ stage call, frame = .inside stage call →
      ∃ also, s.frame fiber = .inside also call)
    (frames : t.frame = Function.update s.frame fiber frame) : Exclusive t := by
  refine exclusive.of_known ?_
  intro other stage call inside
  rw [frames] at inside
  obtain ⟨rfl, equal⟩ | ⟨-, before⟩ := update_inside inside
  · obtain ⟨also, before⟩ := same stage call equal
    exact ⟨also, call, before, rfl, fun woken => woken⟩
  · exact ⟨stage, call, before, rfl, fun woken => woken⟩

omit [DecidableEq P] [DecidableEq W] [Fintype F] in
theorem Exclusive.wake (exclusive : Exclusive s) (tasks : List (Task F C))
    (frames : t.frame = s.frame) : Exclusive (t.wake tasks) := by
  refine exclusive.of_known ?_
  intro fiber stage call inside
  obtain ⟨before, first, -, -, event, woken⟩ := wake_known inside
  rw [frames] at first
  exact ⟨stage, before, first, event, woken⟩

omit [DecidableEq P] [DecidableEq W] [DecidableEq C] [Fintype F] in
theorem Exclusive.leave (exclusive : Exclusive s) {fiber : F} {result : UInt32}
    (frames : t.frame = Function.update s.frame fiber (.out result)) :
    Exclusive t := by
  refine exclusive.move ?_ frames
  rintro stage call equal
  cases equal

omit [DecidableEq W] [DecidableEq C] [Fintype F] in
theorem Exclusive.issue (exclusive : Exclusive s) {fiber : F} {event : Event}
    {timed : Bool} {eventCtx : P} {result : Issue}
    (alone : Alone s (.issue fiber event timed eventCtx result : Action P F W)) :
    Exclusive (issue s fiber event timed eventCtx result) := by
  cases result with
  | completed dwTrans length => exact exclusive.leave rfl
  | failed => exact exclusive.leave rfl
  | pending =>
      intro first other stage also call second inside again same one two
      obtain ⟨rfl, equal⟩ | ⟨apart, before⟩ := update_inside inside
      · cases equal
        obtain ⟨rfl, -⟩ | ⟨other_apart, after⟩ := update_inside again
        · rfl
        · have woken := alone other other_apart second (by rw [after]; rfl) same.symm
          rw [woken] at two
          cases two
      · obtain ⟨rfl, equal⟩ | ⟨-, after⟩ := update_inside again
        · cases equal
          have woken := alone first apart call (by rw [before]; rfl) same
          rw [woken] at one
          cases one
        · exact exclusive first other stage also call second before after same one two

omit [DecidableEq W] [DecidableEq C] [Fintype F] in
theorem Exclusive.run (exclusive : Exclusive s) {fiber : F}
    (taken : run s fiber = some t) : Exclusive t := by
  have kept {stage next : Stage} {call : Call P}
      (place : s.frame fiber = .inside stage call) :
      ∀ also second, Frame.inside next call = .inside also second →
        ∃ before, s.frame fiber = .inside before second := by
    rintro also second equal
    cases equal
    exact ⟨stage, place⟩
  unfold DoSocket.run at taken
  split at taken
  · cases taken
  · rename_i call place
    cases taken
    exact exclusive.move (kept place) rfl
  · rename_i call place
    obtain ⟨io, -, rfl⟩ := Option.map_eq_some_iff.mp taken
    exact exclusive.move (kept place) rfl
  · rename_i call place
    split at taken
    · cases taken
      exact exclusive.move (kept place) rfl
    · cases taken
  · rename_i call place
    cases taken
    exact exclusive.move (kept place) rfl
  · cases taken
    exact exclusive.leave rfl

theorem Exclusive.step (exclusive : Exclusive s) {action : Action P F W}
    (alone : Alone s action) (taken : step s action = some t) : Exclusive t := by
  cases action with
  | issue fiber event timed eventCtx result =>
      obtain ⟨before, -, -, rfl⟩ := issue_cases taken
      exact exclusive.issue alone
  | run fiber => exact exclusive.run taken
  | complete index dwTrans succeeded =>
      obtain ⟨operation, -, rfl⟩ := Option.map_eq_some_iff.mp taken
      exact exclusive
  | dequeue worker =>
      obtain ⟨packet, rest, -, rfl | ⟨-, rfl⟩⟩ := dequeue_cases taken
      · exact exclusive
      · exact exclusive
  | dispatch worker =>
      obtain ⟨packet, -, taken⟩ := Option.bind_eq_some_iff.mp taken
      obtain ⟨⟨io, tasks, lowered⟩, -, rfl⟩ := Option.map_eq_some_iff.mp taken
      exact exclusive.wake tasks rfl
  | expire fiber =>
      obtain ⟨timeout, rfl⟩ := expire_cases taken
      exact exclusive
  | timeout index =>
      obtain ⟨cancelled, timeouts, rfl⟩ |
        ⟨timeout, found, io, -, -, -, rfl⟩ := timeout_cases taken
      · exact exclusive
      · exact exclusive

omit [DecidableEq P] [DecidableEq F] [DecidableEq W] [DecidableEq C] [Fintype F] in
theorem addEvent_clear (inv : Inv s) (exclusive : Exclusive s) {fiber : F}
    {call : Call P} (place : s.frame fiber = .inside .armed call) :
    (s.io.fdContexts ()).events call.event = false := by
  cases set : (s.io.fdContexts ()).events call.event with
  | false => rfl
  | true =>
      obtain ⟨p, held⟩ := inv.sound.present () call.event set
      obtain ⟨other, second, waits, unwoken, event, -⟩ :=
        inv.owner call.event p held
      have early := inv.early fiber .armed call place rfl
      obtain rfl := exclusive fiber other _ _ call second place waits event.symm
        early unwoken
      rw [place] at waits
      cases waits

/-! ### No fiber is woken by the completion of another operation -/

/-- The event context of a call that goes pending is not made at the address of
an operation whose packet is still to be dispatched. -/
def Unshared (s : State P F W C) : Action P F W → Prop
  | .issue _ _ _ eventCtx .pending =>
      (∀ operation ∈ s.inflight, operation.overlapped ≠ eventCtx) ∧
        (∀ packet ∈ s.queue, packet.overlapped ≠ eventCtx) ∧
          ∀ worker, ∀ packet ∈ s.held worker, packet.overlapped ≠ eventCtx
  | _ => True

instance [Fintype W] (s : State P F W C) :
    (action : Action P F W) → Decidable (Unshared s action)
  | .issue _ _ _ eventCtx .pending => inferInstanceAs (Decidable
      ((∀ operation ∈ s.inflight, operation.overlapped ≠ eventCtx) ∧
        (∀ packet ∈ s.queue, packet.overlapped ≠ eventCtx) ∧
          ∀ worker, ∀ packet ∈ s.held worker, packet.overlapped ≠ eventCtx))
  | .issue _ _ _ _ (.completed _ _) => inferInstanceAs (Decidable True)
  | .issue _ _ _ _ .failed => inferInstanceAs (Decidable True)
  | .run _ => inferInstanceAs (Decidable True)
  | .complete _ _ _ => inferInstanceAs (Decidable True)
  | .dequeue _ => inferInstanceAs (Decidable True)
  | .dispatch _ => inferInstanceAs (Decidable True)
  | .expire _ => inferInstanceAs (Decidable True)
  | .timeout _ => inferInstanceAs (Decidable True)

structure Own (s : State P F W C) : Prop where
  /-- what comes with the address of a call belongs to the call -/
  carried : ∀ operation, Transit s operation → ∀ fiber stage call,
    s.frame fiber = .inside stage call →
      operation.overlapped = call.eventCtx → operation.op = call.op
  woken : ∀ fiber stage call, s.frame fiber = .inside stage call →
    call.woken = true → call.op ∈ s.processed

omit [DecidableEq P] [DecidableEq F] [DecidableEq W] [DecidableEq C] [Fintype F] in
theorem Own.of_known (own : Own s)
    (known : ∀ fiber stage call, t.frame fiber = .inside stage call →
      ∃ also before, s.frame fiber = .inside also before ∧ call.op = before.op ∧
        call.eventCtx = before.eventCtx ∧
        (call.woken = true → before.woken = true ∨ call.op ∈ t.processed))
    (fewer : ∀ operation, Transit t operation → Transit s operation)
    (past : ∀ op ∈ s.processed, op ∈ t.processed) : Own t where
  carried operation transit fiber stage call inside same := by
    obtain ⟨also, before, first, op, ctx, -⟩ := known fiber stage call inside
    rw [op]
    exact own.carried operation (fewer operation transit) fiber also before first
      (same.trans ctx)
  woken fiber stage call inside woken := by
    obtain ⟨also, before, first, op, -, either⟩ := known fiber stage call inside
    obtain old | new := either woken
    · rw [op]
      exact past _ (own.woken fiber also before first old)
    · exact new

omit [DecidableEq P] [DecidableEq F] [DecidableEq W] [DecidableEq C] [Fintype F] in
theorem Own.kept (own : Own s) (frames : t.frame = s.frame)
    (fewer : ∀ operation, Transit t operation → Transit s operation)
    (past : ∀ op ∈ s.processed, op ∈ t.processed) : Own t := by
  refine own.of_known ?_ fewer past
  intro fiber stage call inside
  rw [frames] at inside
  exact ⟨stage, call, inside, rfl, rfl, .inl⟩

omit [DecidableEq W] [DecidableEq C] [Fintype F] in
theorem Own.run (own : Own s) {fiber : F} (taken : run s fiber = some t) : Own t := by
  have moved {stage : Stage} {call : Call P} {frame : Frame P}
      (place : s.frame fiber = .inside stage call)
      (same : ∀ also second, frame = .inside also second → second = call)
      {u : State P F W C} (frames : u.frame = Function.update s.frame fiber frame)
      (inflight : u.inflight = s.inflight) (queue : u.queue = s.queue)
      (held : u.held = s.held) (processed : u.processed = s.processed) : Own u := by
    refine own.of_known ?_ ?_ ?_
    · intro other also second inside
      rw [frames] at inside
      obtain ⟨rfl, equal⟩ | ⟨-, before⟩ := update_inside inside
      · obtain rfl := same also second equal
        exact ⟨stage, second, place, rfl, rfl, .inl⟩
      · exact ⟨also, second, before, rfl, rfl, .inl⟩
    · exact fun operation transit => transit.same inflight queue held
    · rw [processed]
      exact fun op member => member
  unfold DoSocket.run at taken
  split at taken
  · cases taken
  · rename_i call place
    cases taken
    exact moved place (by rintro _ _ ⟨⟩; rfl) rfl rfl rfl rfl rfl
  · rename_i call place
    obtain ⟨io, -, rfl⟩ := Option.map_eq_some_iff.mp taken
    exact moved place (by rintro _ _ ⟨⟩; rfl) rfl rfl rfl rfl rfl
  · rename_i call place
    split at taken
    · cases taken
      exact moved place (by rintro _ _ ⟨⟩; rfl) rfl rfl rfl rfl rfl
    · cases taken
  · rename_i call place
    cases taken
    exact moved place (by rintro _ _ ⟨⟩; rfl) rfl rfl rfl rfl rfl
  · rename_i call place
    cases taken
    exact moved place (by rintro _ _ ⟨⟩) rfl rfl rfl rfl rfl

omit [DecidableEq W] [DecidableEq C] [Fintype F] in
theorem Own.issue (own : Own s) {fiber : F} {eventCtx : P} (fresh : s.Fresh eventCtx)
    {event : Event} {timed : Bool} {result : Issue}
    (unshared : Unshared s (.issue fiber event timed eventCtx result : Action P F W)) :
    Own (issue s fiber event timed eventCtx result) := by
  have left {result : UInt32} {stage : Stage} {other : F} {call : Call P}
      (inside : (s.setFrame fiber (.out result)).frame other = .inside stage call) :
      s.frame other = .inside stage call := by
    obtain ⟨-, equal⟩ | ⟨-, kept⟩ := setFrame_inside inside
    · cases equal
    · exact kept
  cases result with
  | failed =>
      refine ⟨?_, ?_⟩
      · intro operation transit other stage call inside
        exact own.carried operation (transit.same rfl rfl rfl) other stage call
          (left inside)
      · intro other stage call inside
        exact own.woken other stage call (left inside)
  | completed dwTrans length =>
      refine ⟨?_, ?_⟩
      · intro operation transit other stage call inside same
        cases transit with
        | inflight operation member =>
            exact own.carried operation (.inflight operation member) other stage call
              (left inside) same
        | held worker packet held =>
            exact own.carried _ (.held worker packet held) other stage call
              (left inside) same
        | queue packet member =>
            obtain old | new := List.mem_append.mp member
            · exact own.carried _ (.queue packet old) other stage call (left inside) same
            · obtain rfl := List.mem_singleton.mp new
              exact absurd same.symm (Fresh.frame fresh (left inside))
      · intro other stage call inside
        exact own.woken other stage call (left inside)
  | pending =>
      obtain ⟨inflight, queue, held⟩ := unshared
      have foreign : ∀ operation, Transit s operation →
          operation.overlapped ≠ eventCtx := by
        intro operation transit
        cases transit with
        | inflight operation member => exact inflight operation member
        | queue packet member => exact queue packet member
        | held worker packet holds => exact held worker packet holds
      have old : ∀ operation, Transit s operation → ∀ other stage call,
          (s.setFrame fiber (.inside .issued
            ⟨s.calls, eventCtx, event, timed, false⟩)).frame other =
              .inside stage call → operation.overlapped = call.eventCtx →
                operation.op = call.op := by
        intro operation transit other stage call inside same
        obtain ⟨-, equal⟩ | ⟨-, kept⟩ := setFrame_inside inside
        · cases equal
          exact absurd same (foreign operation transit)
        · exact own.carried operation transit other stage call kept same
      refine ⟨?_, ?_⟩
      · intro operation transit other stage call inside same
        cases transit with
        | queue packet member =>
            exact old _ (.queue packet member) other stage call inside same
        | held worker packet holds =>
            exact old _ (.held worker packet holds) other stage call inside same
        | inflight operation member =>
            obtain rfl | member := List.mem_cons.mp member
            · obtain ⟨-, equal⟩ | ⟨-, kept⟩ := setFrame_inside inside
              · cases equal
                rfl
              · exact absurd same.symm (Fresh.frame fresh kept)
            · exact old _ (.inflight operation member) other stage call inside same
      · intro other stage call inside woken
        obtain ⟨-, equal⟩ | ⟨-, kept⟩ := setFrame_inside inside
        · cases equal
          cases woken
        · exact own.woken other stage call kept woken

omit [Fintype F] in
theorem Own.dispatch (inv : Inv s) (own : Own s) {worker : W}
    (taken : dispatch s worker = some t) : Own t := by
  obtain ⟨packet, held, taken⟩ := Option.bind_eq_some_iff.mp taken
  obtain ⟨⟨io, tasks, lowered⟩, dispatched, rfl⟩ := Option.map_eq_some_iff.mp taken
  have mine : ∀ fiber stage call, .fiber fiber ∈ tasks →
      s.frame fiber = .inside stage call → call.op = packet.op := by
    intro fiber stage call member place
    cases waits : s.io.waiter () packet.overlapped with
    | none =>
        rw [State.dispatch_of_not_slot _ (State.waiter_eq_none inv.sound waits)]
          at dispatched
        cases dispatched
        cases member
    | some task =>
        obtain ⟨event, slot, ready⟩ := State.waiter_eq_some waits
        obtain ⟨other, second, waiting, unwoken, rfl, ctx⟩ :=
          inv.owner event packet.overlapped slot
        have fibers := (inv.registered other second waiting unwoken).2
        rw [State.dispatch_of_slot inv.sound _ slot, ← ctx, fibers] at dispatched
        cases dispatched
        obtain rfl : fiber = other := by simpa using member
        rw [place] at waiting
        cases waiting
        exact (own.carried _ (.held worker packet held) fiber _ call place
          ctx.symm).symm
  refine own.of_known ?_ ?_ ?_
  · intro fiber stage call inside
    obtain ⟨member, before, first, rfl⟩ | ⟨-, before⟩ := wake_inside inside
    · refine ⟨stage, before, first, rfl, rfl, fun _ => .inr ?_⟩
      change before.op ∈ packet.op :: s.processed
      rw [mine fiber stage before member first]
      exact List.mem_cons_self
    · exact ⟨stage, call, before, rfl, rfl, .inl⟩
  · exact fun operation transit => transit.dispatch rfl rfl rfl
  · exact fun op member => List.mem_cons_of_mem _ member

theorem Own.step (inv : Inv s) (own : Own s) {action : Action P F W}
    (unshared : Unshared s action) (taken : step s action = some t) : Own t := by
  cases action with
  | issue fiber event timed eventCtx result =>
      obtain ⟨before, -, fresh, rfl⟩ := issue_cases taken
      exact own.issue fresh unshared
  | run fiber => exact own.run taken
  | complete index dwTrans succeeded =>
      obtain ⟨operation, found, rfl⟩ := Option.map_eq_some_iff.mp taken
      exact own.kept rfl (fun _ transit => transit.complete found rfl rfl rfl)
        fun op member => member
  | dequeue worker =>
      obtain ⟨packet, rest, queue, rfl | ⟨-, rfl⟩⟩ := dequeue_cases taken
      · exact own.kept rfl
          (fun _ transit => transit.dequeue worker queue rfl rfl (.inr rfl))
          fun op member => member
      · exact own.kept rfl
          (fun _ transit => transit.dequeue worker queue rfl rfl (.inl rfl))
          fun op member => List.mem_cons_of_mem _ member
  | dispatch worker => exact own.dispatch inv taken
  | expire fiber =>
      obtain ⟨timeout, rfl⟩ := expire_cases taken
      exact own.kept rfl (fun _ transit => transit.same rfl rfl rfl)
        fun op member => member
  | timeout index =>
      obtain ⟨cancelled, timeouts, rfl⟩ |
        ⟨timeout, found, io, -, -, -, rfl⟩ := timeout_cases taken
      · exact own.kept rfl (fun _ transit => transit.same rfl rfl rfl)
          fun op member => member
      · exact own.kept rfl (fun _ transit => transit.same rfl rfl rfl)
          fun op member => member

/-- With calls that go pending only while the other side has none outstanding,
packets that come at the right moment and addresses that are not shared,
`addEvent` finds its event clear, and a fiber is woken by the completion of its
own operation. -/
theorem duplex_disjoint {s : State P Side W C}
    (reached : Reach Initial (StepWhen step fun s action => Hooked action ∧
      Alone s action ∧ Prompt s action ∧ Unshared s action) s) :
    (∀ side call, s.frame side = .inside .armed call →
      (s.io.fdContexts ()).events call.event = false) ∧
    ∀ side stage call, s.frame side = .inside stage call →
      (call.op ∈ s.processed ↔ call.woken = true) := by
  have holds : Inv s ∧ Exclusive s ∧ Own s := by
    refine @Reach.invariant _ _ _ _
      (fun s : State P Side W C => Inv s ∧ Exclusive s ∧ Own s) ?_ ?_ _ reached
    · intro s initial
      have out {side : Side} {stage : Stage} {call : Call P}
          (inside : s.frame side = .inside stage call) : False := by
        obtain ⟨result, outside⟩ := initial.frame side
        rw [outside] at inside
        cases inside
      exact ⟨initial.inv, fun _ _ _ _ _ _ inside => (out inside).elim,
        fun _ _ _ _ _ inside => (out inside).elim,
        fun _ _ _ inside => (out inside).elim⟩
    · rintro s action t ⟨inv, exclusive, own⟩
        ⟨⟨-, alone, prompt, unshared⟩, taken⟩
      exact ⟨inv.step prompt taken, exclusive.step alone taken,
        own.step inv unshared taken⟩
  obtain ⟨inv, exclusive, own⟩ := holds
  refine ⟨fun side call => addEvent_clear inv exclusive, ?_⟩
  intro side stage call inside
  exact ⟨inv.woken side stage call inside, own.woken side stage call inside⟩

/-- A send that completes at once, a receive, and a send that goes pending after
the receive was scheduled. -/
theorem duplex_disjoint_turns :
    ∃ (s : State Nat Side Unit Unit) (call : Call Nat),
      s.frame .doWrite = .inside .armed call ∧
      (s.io.fdContexts ()).events call.event = false ∧
      (call.op ∈ s.processed ↔ call.woken = true) := by
  obtain ⟨s, ran, place⟩ : ∃ s : State Nat Side Unit Unit,
      exec (guarded step fun s action => Hooked action ∧ Alone s action ∧
        Prompt s action ∧ Unshared s action) fresh
        [.issue .doWrite .READ true 0 (.completed 5 5),
          .issue .doRead .READ true 1 .pending, .run .doRead, .run .doRead,
          .dequeue (), .dispatch (), .complete 0 12 true, .dequeue (),
          .dispatch (), .issue .doWrite .READ true 0 .pending,
          .run .doWrite] = some s ∧
      s.frame .doWrite = .inside .armed ⟨2, 0, .READ, true, false⟩ :=
    ⟨_, rfl, rfl⟩
  have disjoint := duplex_disjoint (reach_guarded (.start fresh fresh_initial) ran)
  exact ⟨s, _, place, disjoint.1 .doWrite _ place, disjoint.2 .doWrite _ _ place⟩

/-- A send goes pending while a receive is registered: its `addEvent` finds
`READ` set. -/
theorem duplex_collides :
    ∃ (s : State Nat Side Unit Unit) (call : Call Nat),
      Reach Initial (StepWhen step fun _ => Hooked) s ∧
      s.frame .doWrite = .inside .armed call ∧
      (s.io.fdContexts ()).events call.event = true := by
  obtain ⟨s, ran, place, set⟩ : ∃ s : State Nat Side Unit Unit,
      exec (guarded step fun _ => Hooked) fresh
        [.issue .doRead .READ false 0 .pending, .run .doRead, .run .doRead,
          .issue .doWrite .READ false 1 .pending, .run .doWrite] = some s ∧
      s.frame .doWrite = .inside .armed ⟨1, 1, .READ, false, false⟩ ∧
      (s.io.fdContexts ()).events .READ = true := ⟨_, rfl, rfl, rfl⟩
  exact ⟨s, _, reach_guarded (.start fresh fresh_initial) ran, place, set⟩

end Sylar.IOManager.DoSocket
