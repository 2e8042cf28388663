import Sylar.IOManager.DoSocket

namespace Sylar.IOManager.DoSocket

open Logic

/-! Which completions wake the fiber that waits for them. -/

variable {P F W C : Type} [DecidableEq P] [DecidableEq F] [DecidableEq W]
  [DecidableEq C] [Fintype F]

/-- A packet or an operation under way that belongs to a call. -/
inductive Transit (s : State P F W C) : Operation P → Prop
  | inflight (operation : Operation P) (member : operation ∈ s.inflight) :
      Transit s operation
  | queue (packet : Packet P) (member : packet ∈ s.queue) :
      Transit s packet.toOperation
  | held (worker : W) (packet : Packet P) (held : s.held worker = some packet) :
      Transit s packet.toOperation

/-- Before `addEvent`. -/
def Stage.early : Stage → Bool
  | .issued => true
  | .armed => true
  | _ => false

/-- After the fiber was resumed. -/
def Stage.late : Stage → Bool
  | .resumed => true
  | .returning => true
  | _ => false

structure Inv (s : State P F W C) : Prop where
  sound : s.io.Sound
  early : ∀ fiber stage call, s.frame fiber = .inside stage call →
    stage.early = true → call.woken = false
  late : ∀ fiber stage call, s.frame fiber = .inside stage call →
    stage.late = true → call.woken = true
  /-- a fiber that waits and was not scheduled is registered -/
  registered : ∀ fiber call, s.frame fiber = .inside .waiting call →
    call.woken = false → s.io.slot () call.event = some call.eventCtx ∧
      (s.io.contexts call.eventCtx).task = some (.fiber fiber)
  /-- and what is registered is such a fiber -/
  owner : ∀ event p, s.io.slot () event = some p → ∃ fiber call,
    s.frame fiber = .inside .waiting call ∧ call.woken = false ∧
      call.event = event ∧ call.eventCtx = p
  apart : ∀ fiber other stage also call second,
    s.frame fiber = .inside stage call → s.frame other = .inside also second →
    call.eventCtx = second.eventCtx → fiber = other
  numbered : ∀ fiber stage call, s.frame fiber = .inside stage call →
    call.op < s.calls
  carried : ∀ operation, Transit s operation → operation.op < s.calls ∧
    ∀ fiber stage call, s.frame fiber = .inside stage call →
      call.op = operation.op → operation.overlapped = call.eventCtx
  past : ∀ op ∈ s.processed, op < s.calls
  woken : ∀ fiber stage call, s.frame fiber = .inside stage call →
    call.op ∈ s.processed → call.woken = true

variable {s t : State P F W C}

omit [DecidableEq P] [DecidableEq F] [DecidableEq W] [DecidableEq C] [Fintype F] in
theorem Transit.same {operation : Operation P} (transit : Transit t operation)
    (inflight : t.inflight = s.inflight) (queue : t.queue = s.queue)
    (held : t.held = s.held) : Transit s operation := by
  cases transit with
  | inflight operation member => exact .inflight operation (inflight ▸ member)
  | queue packet member => exact .queue packet (queue ▸ member)
  | held worker packet holds => exact .held worker packet (held ▸ holds)

omit [DecidableEq P] [DecidableEq F] [DecidableEq W] [DecidableEq C] [Fintype F] in
theorem Transit.complete {other operation : Operation P} {index : Nat}
    {dwTrans : UInt32} {succeeded : Bool} (transit : Transit t other)
    (found : s.inflight[index]? = some operation)
    (inflight : t.inflight = s.inflight.eraseIdx index)
    (queue : t.queue = s.queue ++ [⟨operation, dwTrans, succeeded⟩])
    (held : t.held = s.held) : Transit s other := by
  cases transit with
  | inflight other member =>
      rw [inflight] at member
      exact .inflight other (List.mem_of_mem_eraseIdx member)
  | held worker packet holds => exact .held worker packet (held ▸ holds)
  | queue packet member =>
      rw [queue] at member
      obtain old | new := List.mem_append.mp member
      · exact .queue packet old
      · obtain rfl := List.mem_singleton.mp new
        exact .inflight operation (List.mem_of_getElem? found)

omit [DecidableEq P] [DecidableEq F] [DecidableEq C] [Fintype F] in
theorem Transit.dequeue {operation : Operation P} {packet : Packet P}
    {rest : List (Packet P)} (transit : Transit t operation) (worker : W)
    (front : s.queue = packet :: rest) (inflight : t.inflight = s.inflight)
    (queue : t.queue = rest) (held : t.held = s.held ∨
      t.held = Function.update s.held worker (some packet)) :
    Transit s operation := by
  have kept {other : Packet P} (member : other ∈ rest) : other ∈ s.queue := by
    rw [front]
    exact List.mem_cons_of_mem _ member
  cases transit with
  | inflight operation member => exact .inflight operation (inflight ▸ member)
  | queue other member => exact .queue other (kept (queue ▸ member))
  | held other dequeued holds =>
      obtain same | taken := held
      · exact .held other dequeued (same ▸ holds)
      · rw [taken] at holds
        by_cases same : other = worker
        · subst same
          rw [Function.update_self] at holds
          cases holds
          refine .queue packet ?_
          rw [front]
          exact List.mem_cons_self
        · rw [Function.update_of_ne same] at holds
          exact .held other dequeued holds

omit [DecidableEq P] [DecidableEq F] [DecidableEq C] [Fintype F] in
theorem Transit.dispatch {operation : Operation P} {worker : W}
    (transit : Transit t operation) (inflight : t.inflight = s.inflight)
    (queue : t.queue = s.queue)
    (held : t.held = Function.update s.held worker none) : Transit s operation := by
  cases transit with
  | inflight operation member => exact .inflight operation (inflight ▸ member)
  | queue packet member => exact .queue packet (queue ▸ member)
  | held other packet holds =>
      rw [held] at holds
      by_cases same : other = worker
      · subst same
        rw [Function.update_self] at holds
        cases holds
      · rw [Function.update_of_ne same] at holds
        exact .held other packet holds

omit [DecidableEq P] [DecidableEq F] [DecidableEq W] [DecidableEq C] [Fintype F] in
/-- What the invariant does not speak of. -/
theorem Inv.timers (inv : Inv s) (timer cancelled : F → Bool)
    (timeouts : List (Timeout F)) :
    Inv { s with timer := timer, cancelled := cancelled, timeouts := timeouts } where
  sound := inv.sound
  early := inv.early
  late := inv.late
  registered := inv.registered
  owner := inv.owner
  apart := inv.apart
  numbered := inv.numbered
  carried operation transit := by
    exact inv.carried operation (transit.same rfl rfl rfl)
  past := inv.past
  woken := inv.woken

omit [DecidableEq P] [Fintype F] in
theorem update_inside {frames : F → Frame P} {fiber other : F} {frame : Frame P}
    {stage : Stage} {call : Call P}
    (place : Function.update frames fiber frame other = .inside stage call) :
    (other = fiber ∧ frame = .inside stage call) ∨
      (other ≠ fiber ∧ frames other = .inside stage call) := by
  by_cases same : other = fiber
  · subst same
    rw [Function.update_self] at place
    exact .inl ⟨rfl, place⟩
  · rw [Function.update_of_ne same] at place
    exact .inr ⟨same, place⟩

omit [DecidableEq W] [DecidableEq C] [DecidableEq P] [Fintype F] in
theorem setFrame_inside {fiber other : F} {frame : Frame P} {stage : Stage}
    {call : Call P} (place : (s.setFrame fiber frame).frame other = .inside stage call) :
    (other = fiber ∧ frame = .inside stage call) ∨
      (other ≠ fiber ∧ s.frame other = .inside stage call) :=
  update_inside place

omit [DecidableEq P] [DecidableEq W] [DecidableEq C] [Fintype F] in
theorem setFrame_self (fiber : F) (frame : Frame P) :
    (s.setFrame fiber frame).frame fiber = frame :=
  Function.update_self ..

omit [DecidableEq P] [DecidableEq W] [DecidableEq C] [Fintype F] in
theorem setFrame_of_ne {fiber other : F} (different : other ≠ fiber) (frame : Frame P) :
    (s.setFrame fiber frame).frame other = s.frame other :=
  Function.update_of_ne different ..

omit [DecidableEq W] [DecidableEq C] [DecidableEq P] [Fintype F] in
/-- A fiber that is not registered goes on, or leaves `do_socket`. -/
theorem Inv.move (inv : Inv s) {fiber : F} {stage : Stage} {call : Call P}
    (place : s.frame fiber = .inside stage call)
    (idle : stage = .waiting → call.woken = true) {frame : Frame P}
    (same : ∀ next second, frame = .inside next second → second = call ∧
      next ≠ .waiting ∧ (next.early = true → call.woken = false) ∧
      (next.late = true → call.woken = true)) :
    Inv (s.setFrame fiber frame) where
  sound := inv.sound
  early other next second inside early := by
    obtain ⟨rfl, equal⟩ | ⟨-, before⟩ := setFrame_inside inside
    · obtain ⟨rfl, -, unwoken, -⟩ := same next second equal
      exact unwoken early
    · exact inv.early other next second before early
  late other next second inside late := by
    obtain ⟨rfl, equal⟩ | ⟨-, before⟩ := setFrame_inside inside
    · obtain ⟨rfl, -, -, woken⟩ := same next second equal
      exact woken late
    · exact inv.late other next second before late
  registered other second inside := by
    obtain ⟨rfl, equal⟩ | ⟨-, before⟩ := setFrame_inside inside
    · exact absurd rfl (same .waiting second equal).2.1
    · exact inv.registered other second before
  owner event p held := by
    obtain ⟨other, second, waits, unwoken, rest⟩ := inv.owner event p held
    have different : other ≠ fiber := by
      rintro rfl
      rw [place] at waits
      cases waits
      rw [idle rfl] at unwoken
      cases unwoken
    refine ⟨other, second, ?_, unwoken, rest⟩
    rw [setFrame_of_ne different]
    exact waits
  apart first other next also one two inside again ctx := by
    obtain ⟨rfl, equal⟩ | ⟨-, before⟩ := setFrame_inside inside
    · obtain ⟨rfl, -⟩ := same next one equal
      obtain ⟨rfl, -⟩ | ⟨-, before⟩ := setFrame_inside again
      · rfl
      · exact inv.apart _ other stage also one two place before ctx
    · obtain ⟨rfl, equal⟩ | ⟨-, second⟩ := setFrame_inside again
      · obtain ⟨rfl, -⟩ := same also two equal
        exact inv.apart first _ next stage one two before place ctx
      · exact inv.apart first other next also one two before second ctx
  numbered other next second inside := by
    obtain ⟨rfl, equal⟩ | ⟨-, before⟩ := setFrame_inside inside
    · obtain ⟨rfl, -⟩ := same next second equal
      exact inv.numbered _ stage second place
    · exact inv.numbered other next second before
  carried operation transit := by
    obtain ⟨bound, matching⟩ := inv.carried operation (transit.same rfl rfl rfl)
    refine ⟨bound, ?_⟩
    intro other next second inside op
    obtain ⟨rfl, equal⟩ | ⟨-, before⟩ := setFrame_inside inside
    · obtain ⟨rfl, -⟩ := same next second equal
      exact matching _ stage second place op
    · exact matching other next second before op
  past := inv.past
  woken other next second inside processed := by
    obtain ⟨rfl, equal⟩ | ⟨-, before⟩ := setFrame_inside inside
    · obtain ⟨rfl, -⟩ := same next second equal
      exact inv.woken _ stage second place processed
    · exact inv.woken other next second before processed

omit [DecidableEq W] [DecidableEq C] [Fintype F] in
theorem Inv.addEvent (inv : Inv s) {fiber : F} {call : Call P}
    (place : s.frame fiber = .inside .armed call) {io : IOManager.State Unit P F C}
    (added : s.io.addEvent () call.event call.eventCtx (.fiber fiber) = some io) :
    Inv { s.setFrame fiber (.inside .waiting call) with io := io } := by
  obtain ⟨clear, unused, -⟩ := State.addEvent_eq_some added
  have slots := State.addEvent_slot added
  have contexts := State.addEvent_contexts added
  have inside_of {other : F} {stage : Stage} {second : Call P}
      (inside : (s.setFrame fiber (.inside .waiting call)).frame other =
        .inside stage second) :
      (other = fiber ∧ stage = .waiting ∧ second = call) ∨
        (other ≠ fiber ∧ s.frame other = .inside stage second) := by
    obtain ⟨rfl, equal⟩ | before := setFrame_inside inside
    · cases equal
      exact .inl ⟨rfl, rfl, rfl⟩
    · exact .inr before
  have known {other : F} {stage : Stage} {second : Call P}
      (inside : (s.setFrame fiber (.inside .waiting call)).frame other =
        .inside stage second) : ∃ before, s.frame other = .inside before second := by
    obtain ⟨rfl, -, rfl⟩ | ⟨-, before⟩ := inside_of inside
    · exact ⟨.armed, place⟩
    · exact ⟨stage, before⟩
  have unwoken := inv.early fiber .armed call place rfl
  refine ⟨inv.sound.addEvent added, ?_, ?_, ?_, ?_, ?_, ?_, ?_, inv.past, ?_⟩
  · intro other stage second inside early
    obtain ⟨rfl, rfl, rfl⟩ | ⟨-, before⟩ := inside_of inside
    · exact unwoken
    · exact inv.early other stage second before early
  · intro other stage second inside late
    obtain ⟨rfl, rfl, rfl⟩ | ⟨-, before⟩ := inside_of inside
    · cases late
    · exact inv.late other stage second before late
  · intro other second inside waits
    rw [slots, contexts]
    obtain ⟨rfl, -, rfl⟩ | ⟨different, before⟩ := inside_of inside
    · rw [if_pos ⟨rfl, rfl⟩, Function.update_self]
      exact ⟨rfl, EventContext.assign_task unused _⟩
    · obtain ⟨held, task⟩ := inv.registered other second before waits
      have event : second.event ≠ call.event := by
        intro same
        have set := (FdContext.slot_eq_some.mp held).1
        rw [same, clear] at set
        cases set
      have ctx : second.eventCtx ≠ call.eventCtx := fun same =>
        different (inv.apart other fiber .waiting .armed second call before place same)
      rw [if_neg fun same => event same.2, Function.update_of_ne ctx]
      exact ⟨held, task⟩
  · intro event p held
    rw [slots] at held
    split at held
    · rename_i same
      cases held
      exact ⟨fiber, call, setFrame_self .., unwoken, same.2.symm, rfl⟩
    · obtain ⟨other, second, waits, rest⟩ := inv.owner event p held
      have different : other ≠ fiber := by
        rintro rfl
        rw [place] at waits
        cases waits
      refine ⟨other, second, ?_, rest⟩
      exact (setFrame_of_ne different _).trans waits
  · intro other third stage also second more inside again ctx
    obtain ⟨before, first⟩ := known inside
    obtain ⟨after, last⟩ := known again
    exact inv.apart other third before after second more first last ctx
  · intro other stage second inside
    obtain ⟨before, first⟩ := known inside
    exact inv.numbered other before second first
  · intro operation transit
    obtain ⟨bound, matching⟩ := inv.carried operation (transit.same rfl rfl rfl)
    refine ⟨bound, ?_⟩
    intro other stage second inside
    obtain ⟨before, first⟩ := known inside
    exact matching other before second first
  · intro other stage second inside
    obtain ⟨before, first⟩ := known inside
    exact inv.woken other before second first

omit [DecidableEq P] [DecidableEq F] [DecidableEq W] [DecidableEq C] [Fintype F] in
/-- A change of the operations under way, after which one of them may have been
processed. -/
theorem Inv.process (inv : Inv s) {inflight : List (Operation P)}
    {queue : List (Packet P)} {held : W → Option (Packet P)} {processed : List Nat}
    (fewer : ∀ operation, Transit { s with
      inflight := inflight, queue := queue, held := held } operation →
      Transit s operation)
    (past : ∀ op ∈ processed, op < s.calls)
    (woken : ∀ fiber stage call, s.frame fiber = .inside stage call →
      call.op ∈ processed → call.woken = true) :
    Inv { s with
      inflight := inflight, queue := queue, held := held, processed := processed } where
  sound := inv.sound
  early := inv.early
  late := inv.late
  registered := inv.registered
  owner := inv.owner
  apart := inv.apart
  numbered := inv.numbered
  carried operation transit := by
    exact inv.carried operation (fewer operation (transit.same rfl rfl rfl))
  past := past
  woken := woken

omit [DecidableEq F] [DecidableEq W] [DecidableEq C] [Fintype F] in
theorem Inv.transfer (inv : Inv s) (p : P) (length : UInt32) :
    Inv { s with io :=
      s.io.setContext p { s.io.contexts p with dwDataLength := length } } where
  sound := inv.sound.transfer p length
  early := inv.early
  late := inv.late
  registered fiber call place unwoken := by
    obtain ⟨held, task⟩ := inv.registered fiber call place unwoken
    refine ⟨held, ?_⟩
    by_cases same : call.eventCtx = p
    · subst same
      simpa [State.setContext, EventContext.task] using task
    · simpa [State.setContext, same] using task
  owner := inv.owner
  apart := inv.apart
  numbered := inv.numbered
  carried operation transit := by
    exact inv.carried operation (transit.same rfl rfl rfl)
  past := inv.past
  woken := inv.woken

omit [DecidableEq P] [DecidableEq W] [Fintype F] in
theorem wake_inside {tasks : List (Task F C)} {fiber : F} {stage : Stage}
    {call : Call P} (place : (s.wake tasks).frame fiber = .inside stage call) :
    (.fiber fiber ∈ tasks ∧ ∃ before, s.frame fiber = .inside stage before ∧
      call = { before with woken := true }) ∨
    (.fiber fiber ∉ tasks ∧ s.frame fiber = .inside stage call) := by
  change (if .fiber fiber ∈ tasks then (s.frame fiber).wake else s.frame fiber) = _
    at place
  split at place
  · rename_i member
    cases frame : s.frame fiber with
    | out result =>
        rw [frame] at place
        cases place
    | inside also before =>
        rw [frame] at place
        cases place
        exact .inl ⟨member, before, rfl, rfl⟩
  · rename_i absent
    exact .inr ⟨absent, place⟩

omit [DecidableEq P] [DecidableEq W] [Fintype F] in
theorem wake_known {tasks : List (Task F C)} {fiber : F} {stage : Stage}
    {call : Call P} (place : (s.wake tasks).frame fiber = .inside stage call) :
    ∃ before, s.frame fiber = .inside stage before ∧ call.op = before.op ∧
      call.eventCtx = before.eventCtx ∧ call.event = before.event ∧
      (before.woken = true → call.woken = true) := by
  obtain ⟨-, before, first, rfl⟩ | ⟨-, first⟩ := wake_inside place
  · exact ⟨before, first, rfl, rfl, rfl, fun _ => rfl⟩
  · exact ⟨call, first, rfl, rfl, rfl, fun woken => woken⟩

omit [DecidableEq W] [Fintype F] in
theorem Inv.fire (inv : Inv s) {fiber : F} {call : Call P}
    (place : s.frame fiber = .inside .waiting call)
    (held : s.io.slot () call.event = some call.eventCtx) :
    Inv ({ s with io := (s.io.release () call.event call.eventCtx).lower }.wake
      [.fiber fiber]) := by
  have member {other : F} : (.fiber other : Task F C) ∈ [.fiber fiber] ↔
      other = fiber := by simp
  refine ⟨(inv.sound.release held).lower, ?_, ?_, ?_, ?_, ?_, ?_, ?_, inv.past, ?_⟩
  · intro other stage second inside early
    obtain ⟨here, before, first, rfl⟩ | ⟨-, before⟩ := wake_inside inside
    · obtain rfl := member.mp here
      rw [show s.frame other = _ from first] at place
      cases place
      cases early
    · exact inv.early other stage second before early
  · intro other stage second inside late
    obtain ⟨-, before, -, rfl⟩ | ⟨-, before⟩ := wake_inside inside
    · rfl
    · exact inv.late other stage second before late
  · intro other second inside waits
    obtain ⟨-, before, -, rfl⟩ | ⟨absent, before⟩ := wake_inside inside
    · cases waits
    · obtain ⟨slot, task⟩ := inv.registered other second before waits
      have different : other ≠ fiber := fun same => absent (member.mpr same)
      have ctx : second.eventCtx ≠ call.eventCtx := fun same =>
        different (inv.apart other fiber _ _ second call before place same)
      have event : ¬ (() = () ∧ second.event = call.event) := by
        rintro ⟨-, same⟩
        rw [same, held] at slot
        exact ctx (Option.some.inj slot).symm
      refine ⟨?_, ?_⟩
      · change (s.io.release () call.event call.eventCtx).slot () second.event = _
        rw [State.release_slot, if_neg event]
        exact slot
      · change ((s.io.release () call.event call.eventCtx).contexts _).task = _
        rw [State.release_contexts_of_ne ctx]
        exact task
  · intro event p slot
    change (s.io.release () call.event call.eventCtx).slot () event = _ at slot
    rw [State.release_slot] at slot
    split at slot
    · cases slot
    · rename_i apart
      obtain ⟨other, second, waits, unwoken, rfl, rfl⟩ := inv.owner event p slot
      have different : other ≠ fiber := by
        rintro rfl
        rw [place] at waits
        cases waits
        exact apart ⟨rfl, rfl⟩
      refine ⟨other, second, ?_, unwoken, rfl, rfl⟩
      exact (if_neg fun here => different (member.mp here)).trans waits
  · intro other third stage also second more inside again ctx
    obtain ⟨before, first, -, left, -⟩ := wake_known inside
    obtain ⟨after, last, -, right, -⟩ := wake_known again
    exact inv.apart other third stage also before after first last
      (left.symm.trans (ctx.trans right))
  · intro other stage second inside
    obtain ⟨before, first, op, -⟩ := wake_known inside
    rw [op]
    exact inv.numbered other stage before first
  · intro operation transit
    obtain ⟨bound, matching⟩ := inv.carried operation (transit.same rfl rfl rfl)
    refine ⟨bound, ?_⟩
    intro other stage second inside same
    obtain ⟨before, first, op, ctx, -⟩ := wake_known inside
    rw [ctx]
    exact matching other stage before first (op.symm.trans same)
  · intro other stage second inside processed
    obtain ⟨before, first, op, -, -, more⟩ := wake_known inside
    rw [op] at processed
    exact more (inv.woken other stage before first processed)

omit [DecidableEq F] [DecidableEq W] [DecidableEq C] [Fintype F] in
theorem Fresh.slot {p : P} (fresh : s.Fresh p) (fd : Unit) (event : Event) :
    s.io.slot fd event ≠ some p := by
  intro held
  have ctx := (FdContext.slot_eq_some.mp held).2
  cases event with
  | READ => exact fresh.2.1 ctx
  | WRITE => exact fresh.2.2 ctx

omit [DecidableEq F] [DecidableEq W] [DecidableEq C] [Fintype F] in
theorem Fresh.frame {p : P} (fresh : s.Fresh p) {fiber : F} {stage : Stage}
    {call : Call P} (place : s.frame fiber = .inside stage call) :
    call.eventCtx ≠ p := by
  have all := fresh.1 fiber
  rw [place] at all
  simpa [Frame.call] using all

omit [DecidableEq F] [DecidableEq W] [DecidableEq C] [Fintype F] in
theorem Inv.create (inv : Inv s) {p : P} (fresh : s.Fresh p) :
    Inv { s with io := s.io.createEventContext p } where
  sound := inv.sound.createEventContext (Fresh.slot fresh)
  early := inv.early
  late := inv.late
  registered fiber call place unwoken := by
    obtain ⟨held, task⟩ := inv.registered fiber call place unwoken
    refine ⟨held, ?_⟩
    change (Function.update s.io.contexts p _ call.eventCtx).task = _
    rw [Function.update_of_ne (Fresh.frame fresh place)]
    exact task
  owner := inv.owner
  apart := inv.apart
  numbered := inv.numbered
  carried operation transit := by
    exact inv.carried operation (transit.same rfl rfl rfl)
  past := inv.past
  woken := inv.woken

omit [DecidableEq W] [DecidableEq C] [Fintype F] in
/-- A call that does not go pending: its packet, if there is one, belongs to no
call. -/
theorem Inv.pass (inv : Inv s) {fiber : F} {before after : UInt32}
    (place : s.frame fiber = .out before) {queue : List (Packet P)}
    (added : ∀ packet ∈ queue, packet ∈ s.queue ∨ packet.op = s.calls) :
    Inv { s.setFrame fiber (.out after) with queue := queue, calls := s.calls + 1 } := by
  have known {other : F} {stage : Stage} {call : Call P}
      (inside : (s.setFrame fiber (.out after)).frame other = .inside stage call) :
      s.frame other = .inside stage call := by
    obtain ⟨-, equal⟩ | ⟨-, before⟩ := setFrame_inside inside
    · cases equal
    · exact before
  refine ⟨inv.sound, ?_, ?_, ?_, ?_, ?_, ?_, ?_, ?_, ?_⟩
  · intro other stage call inside
    exact inv.early other stage call (known inside)
  · intro other stage call inside
    exact inv.late other stage call (known inside)
  · intro other call inside
    exact inv.registered other call (known inside)
  · intro event p held
    obtain ⟨other, call, waits, rest⟩ := inv.owner event p held
    refine ⟨other, call, ?_, rest⟩
    have different : other ≠ fiber := by
      rintro rfl
      rw [place] at waits
      cases waits
    exact (setFrame_of_ne different _).trans waits
  · intro other third stage also call second inside again
    exact inv.apart other third stage also call second (known inside) (known again)
  · intro other stage call inside
    exact (inv.numbered other stage call (known inside)).trans (Nat.lt_succ_self _)
  · have old : ∀ operation, Transit s operation → operation.op < s.calls + 1 ∧
        ∀ other stage call, (s.setFrame fiber (.out after)).frame other =
          .inside stage call → call.op = operation.op →
            operation.overlapped = call.eventCtx := by
      intro operation transit
      obtain ⟨bound, matching⟩ := inv.carried operation transit
      refine ⟨bound.trans (Nat.lt_succ_self _), ?_⟩
      intro other stage call inside
      exact matching other stage call (known inside)
    intro operation transit
    cases transit with
    | inflight operation member => exact old operation (.inflight operation member)
    | held worker packet held => exact old _ (.held worker packet held)
    | queue packet member =>
        obtain kept | fresh := added packet member
        · exact old _ (.queue packet kept)
        · refine ⟨?_, ?_⟩
          · change packet.op < s.calls + 1
            omega
          · intro other stage call inside same
            have bound := inv.numbered other stage call (known inside)
            change call.op = packet.op at same
            omega
  · intro op member
    exact (inv.past op member).trans (Nat.lt_succ_self _)
  · intro other stage call inside
    exact inv.woken other stage call (known inside)

omit [DecidableEq W] [DecidableEq C] [DecidableEq P] [Fintype F] in
theorem Inv.pend (inv : Inv s) {fiber : F} {before : UInt32}
    (place : s.frame fiber = .out before) {p : P}
    (fresh : ∀ other stage call, s.frame other = .inside stage call →
      call.eventCtx ≠ p) (event : Event) (timed : Bool) :
    Inv { s.setFrame fiber (.inside .issued ⟨s.calls, p, event, timed, false⟩) with
      inflight := ⟨p, s.calls⟩ :: s.inflight, calls := s.calls + 1 } := by
  have known {other : F} {stage : Stage} {call : Call P}
      (inside : (s.setFrame fiber (.inside .issued
        ⟨s.calls, p, event, timed, false⟩)).frame other = .inside stage call) :
      (other = fiber ∧ stage = .issued ∧ call = ⟨s.calls, p, event, timed, false⟩) ∨
        (other ≠ fiber ∧ s.frame other = .inside stage call) := by
    obtain ⟨rfl, equal⟩ | before := setFrame_inside inside
    · cases equal
      exact .inl ⟨rfl, rfl, rfl⟩
    · exact .inr before
  refine ⟨inv.sound, ?_, ?_, ?_, ?_, ?_, ?_, ?_, ?_, ?_⟩
  · intro other stage call inside early
    obtain ⟨-, -, rfl⟩ | ⟨-, before⟩ := known inside
    · rfl
    · exact inv.early other stage call before early
  · intro other stage call inside late
    obtain ⟨-, rfl, -⟩ | ⟨-, before⟩ := known inside
    · cases late
    · exact inv.late other stage call before late
  · intro other call inside
    obtain ⟨-, waiting, -⟩ | ⟨-, before⟩ := known inside
    · cases waiting
    · exact inv.registered other call before
  · intro event p held
    obtain ⟨other, call, waits, rest⟩ := inv.owner event p held
    refine ⟨other, call, ?_, rest⟩
    have different : other ≠ fiber := by
      rintro rfl
      rw [place] at waits
      cases waits
    exact (setFrame_of_ne different _).trans waits
  · intro other third stage also call second inside again ctx
    obtain ⟨rfl, -, rfl⟩ | ⟨-, before⟩ := known inside
    · obtain ⟨rfl, -, -⟩ | ⟨-, before⟩ := known again
      · rfl
      · exact absurd ctx.symm (fresh third also second before)
    · obtain ⟨rfl, -, rfl⟩ | ⟨-, after⟩ := known again
      · exact absurd ctx (fresh other stage call before)
      · exact inv.apart other third stage also call second before after ctx
  · intro other stage call inside
    obtain ⟨-, -, rfl⟩ | ⟨-, before⟩ := known inside
    · exact Nat.lt_succ_self _
    · exact (inv.numbered other stage call before).trans (Nat.lt_succ_self _)
  · have old : ∀ operation, Transit s operation → operation.op < s.calls + 1 ∧
        ∀ other stage call, (s.setFrame fiber (.inside .issued
          ⟨s.calls, p, event, timed, false⟩)).frame other = .inside stage call →
            call.op = operation.op → operation.overlapped = call.eventCtx := by
      intro operation transit
      obtain ⟨bound, matching⟩ := inv.carried operation transit
      refine ⟨bound.trans (Nat.lt_succ_self _), ?_⟩
      intro other stage call inside same
      obtain ⟨-, -, rfl⟩ | ⟨-, before⟩ := known inside
      · exact absurd same.symm bound.ne
      · exact matching other stage call before same
    intro operation transit
    cases transit with
    | queue packet member => exact old _ (.queue packet member)
    | held worker packet held => exact old _ (.held worker packet held)
    | inflight operation member =>
        obtain rfl | member := List.mem_cons.mp member
        · refine ⟨Nat.lt_succ_self _, ?_⟩
          intro other stage call inside same
          obtain ⟨-, -, rfl⟩ | ⟨-, before⟩ := known inside
          · rfl
          · exact absurd same (inv.numbered other stage call before).ne
        · exact old operation (.inflight operation member)
  · intro op member
    exact (inv.past op member).trans (Nat.lt_succ_self _)
  · intro other stage call inside processed
    obtain ⟨-, -, rfl⟩ | ⟨-, before⟩ := known inside
    · exact absurd (inv.past _ processed) (lt_irrefl _)
    · exact inv.woken other stage call before processed

/-- The call of a fiber that has yet to pass `addEvent`. -/
def Frame.unregistered : Frame P → Option (Call P)
  | .inside .issued call => some call
  | .inside .armed call => some call
  | _ => none

/-- No packet is dispatched while the call it belongs to has yet to pass
`addEvent`, no failed packet of a call is dequeued whose fiber was not
scheduled, and no `cancelEvent` finds the event registered. -/
def Prompt (s : State P F W C) : Action P F W → Prop
  | .dispatch worker => ∀ packet ∈ s.held worker, ∀ fiber,
      ∀ call ∈ (s.frame fiber).unregistered, call.op ≠ packet.op
  | .dequeue _ => ∀ packet ∈ s.queue.head?, packet.succeeded = false →
      ∀ fiber, ∀ call ∈ (s.frame fiber).call, call.op = packet.op →
        call.woken = true
  | .timeout index => ∀ timeout ∈ s.timeouts[index]?, timeout.stage = .cancelEvent →
      (s.io.fdContexts ()).events timeout.event = false
  | _ => True

instance (s : State P F W C) : (action : Action P F W) → Decidable (Prompt s action)
  | .dispatch worker => inferInstanceAs (Decidable (∀ packet ∈ s.held worker,
      ∀ fiber, ∀ call ∈ (s.frame fiber).unregistered, call.op ≠ packet.op))
  | .dequeue _ => inferInstanceAs (Decidable (∀ packet ∈ s.queue.head?,
      packet.succeeded = false → ∀ fiber, ∀ call ∈ (s.frame fiber).call,
        call.op = packet.op → call.woken = true))
  | .timeout index => inferInstanceAs (Decidable (∀ timeout ∈ s.timeouts[index]?,
      timeout.stage = .cancelEvent →
        (s.io.fdContexts ()).events timeout.event = false))
  | .issue _ _ _ _ _ => inferInstanceAs (Decidable True)
  | .run _ => inferInstanceAs (Decidable True)
  | .complete _ _ _ => inferInstanceAs (Decidable True)
  | .expire _ => inferInstanceAs (Decidable True)

omit [DecidableEq W] [DecidableEq C] [Fintype F] in
theorem Inv.issue (inv : Inv s) {fiber : F} {before : UInt32}
    (place : s.frame fiber = .out before) {eventCtx : P} (fresh : s.Fresh eventCtx)
    (event : Event) (timed : Bool) (result : Issue) :
    Inv (issue s fiber event timed eventCtx result) := by
  have created := inv.create fresh
  cases result with
  | completed dwTrans length =>
      refine created.pass place ?_
      intro packet member
      obtain old | new := List.mem_append.mp member
      · exact .inl old
      · obtain rfl := List.mem_singleton.mp new
        exact .inr rfl
  | failed => exact created.pass place fun packet member => .inl member
  | pending =>
      have pended := created.pend place
        (fun other stage call inside => Fresh.frame fresh inside) event timed
      exact pended.timers s.timer (Function.update s.cancelled fiber false) s.timeouts

omit [DecidableEq W] [DecidableEq C] [Fintype F] in
theorem Inv.run (inv : Inv s) {fiber : F} (taken : run s fiber = some t) : Inv t := by
  unfold DoSocket.run at taken
  split at taken
  · cases taken
  · rename_i call place
    cases taken
    have moved : Inv (s.setFrame fiber (.inside .armed call)) := by
      refine inv.move place (by simp) ?_
      rintro next second equal
      cases equal
      exact ⟨rfl, by simp, fun _ => inv.early fiber .issued call place rfl,
        by simp [Stage.late]⟩
    exact moved.timers _ s.cancelled s.timeouts
  · rename_i call place
    obtain ⟨io, added, rfl⟩ := Option.map_eq_some_iff.mp taken
    exact inv.addEvent place added
  · rename_i call place
    split at taken
    · rename_i woken
      cases taken
      refine inv.move place (fun _ => woken) ?_
      rintro next second equal
      cases equal
      exact ⟨rfl, by simp, by simp [Stage.early], fun _ => woken⟩
    · cases taken
  · rename_i call place
    cases taken
    have woken := inv.late fiber .resumed call place rfl
    have moved : Inv (s.setFrame fiber (.inside .returning call)) := by
      refine inv.move place (by simp) ?_
      rintro next second equal
      cases equal
      exact ⟨rfl, by simp, by simp [Stage.early], fun _ => woken⟩
    exact moved.timers _ s.cancelled s.timeouts
  · rename_i call place
    cases taken
    refine inv.move place (by simp) ?_
    rintro next second equal
    cases equal

omit [DecidableEq P] [DecidableEq F] [DecidableEq W] [DecidableEq C] [Fintype F] in
theorem Inv.complete (inv : Inv s) {index : Nat} {dwTrans : UInt32}
    {succeeded : Bool} {operation : Operation P}
    (found : s.inflight[index]? = some operation) :
    Inv { s with
      inflight := s.inflight.eraseIdx index
      queue := s.queue ++ [⟨operation, dwTrans, succeeded⟩] } :=
  inv.process (fun _ transit => transit.complete found rfl rfl rfl) inv.past inv.woken

omit [DecidableEq P] [DecidableEq F] [DecidableEq C] [Fintype F] in
theorem Inv.dequeue (inv : Inv s) {worker : W} (prompt : Prompt s (.dequeue worker))
    (taken : dequeue s worker = some t) : Inv t := by
  obtain ⟨packet, rest, queue, rfl | ⟨failed, rfl⟩⟩ := dequeue_cases taken
  · exact inv.process (fun _ transit => transit.dequeue worker queue rfl rfl (.inr rfl))
      inv.past inv.woken
  · have first : packet ∈ s.queue := by
      rw [queue]
      exact List.mem_cons_self
    refine inv.process
      (fun _ transit => transit.dequeue worker queue rfl rfl (.inl rfl)) ?_ ?_
    · intro op member
      obtain rfl | old := List.mem_cons.mp member
      · exact (inv.carried _ (.queue packet first)).1
      · exact inv.past op old
    · intro fiber stage call place member
      obtain same | old := List.mem_cons.mp member
      · have head : packet ∈ s.queue.head? := by
          rw [queue]
          rfl
        refine prompt packet head failed fiber call ?_ same
        rw [place]
        rfl
      · exact inv.woken fiber stage call place old

omit [Fintype F] in
theorem Inv.dispatch (inv : Inv s) {worker : W} (prompt : Prompt s (.dispatch worker))
    (taken : dispatch s worker = some t) : Inv t := by
  obtain ⟨packet, held, taken⟩ := Option.bind_eq_some_iff.mp taken
  obtain ⟨⟨io, tasks, lowered⟩, dispatched, rfl⟩ := Option.map_eq_some_iff.mp taken
  obtain ⟨bound, matching⟩ := inv.carried _ (.held worker packet held)
  have settle {u : State P F W C} (done : Inv u) (same : u.held = s.held)
      (processed : u.processed = s.processed) (calls : u.calls = s.calls)
      (woken : ∀ fiber stage call, u.frame fiber = .inside stage call →
        call.op = packet.op → call.woken = true) :
      Inv { u with
        inflight := u.inflight
        queue := u.queue
        held := Function.update u.held worker none
        processed := packet.op :: u.processed } := by
    refine done.process (fun _ transit => transit.dispatch rfl rfl rfl) ?_ ?_
    · intro op member
      obtain rfl | old := List.mem_cons.mp member
      · rw [calls]
        exact bound
      · exact done.past op old
    · intro fiber stage call place member
      obtain same | old := List.mem_cons.mp member
      · exact woken fiber stage call place same
      · exact done.woken fiber stage call place old
  have stored := inv.transfer packet.overlapped packet.dwTrans
  cases waits : s.io.waiter () packet.overlapped with
  | none =>
      have stray := State.waiter_eq_none inv.sound waits
      rw [State.dispatch_of_not_slot packet.dwTrans stray] at dispatched
      cases dispatched
      change Inv (State.wake _ [])
      rw [wake_nil]
      refine settle stored rfl rfl rfl ?_
      intro fiber stage call place same
      have passed := prompt packet held fiber call
      rw [show s.frame fiber = _ from place] at passed
      cases stage with
      | issued => exact absurd same (passed rfl)
      | armed => exact absurd same (passed rfl)
      | resumed => exact inv.late fiber .resumed call place rfl
      | returning => exact inv.late fiber .returning call place rfl
      | waiting =>
          cases woken : call.woken with
          | true => rfl
          | false =>
              have slot := (inv.registered fiber call place woken).1
              rw [← matching fiber .waiting call place same] at slot
              exact absurd slot (stray call.event)
  | some task =>
      obtain ⟨event, slot, ready⟩ := State.waiter_eq_some waits
      obtain ⟨fiber, call, place, unwoken, rfl, ctx⟩ :=
        inv.owner event packet.overlapped slot
      have fibers := (inv.registered fiber call place unwoken).2
      rw [State.dispatch_of_slot inv.sound packet.dwTrans slot, ← ctx, fibers]
        at dispatched
      cases dispatched
      rw [← ctx] at stored slot
      refine settle (stored.fire place slot) rfl rfl rfl ?_
      intro other stage second inside same
      obtain ⟨-, before, -, rfl⟩ | ⟨absent, before⟩ := wake_inside inside
      · rfl
      · have equal := matching other stage second before same
        have one := inv.apart other fiber stage .waiting second call before place
          (equal.symm.trans ctx.symm)
        exact absurd (by simp [one]) absent

theorem Inv.step (inv : Inv s) {action : Action P F W} (prompt : Prompt s action)
    (taken : step s action = some t) : Inv t := by
  cases action with
  | issue fiber event timed eventCtx result =>
      obtain ⟨before, place, fresh, rfl⟩ := issue_cases taken
      exact inv.issue place fresh event timed result
  | run fiber => exact inv.run taken
  | complete index dwTrans succeeded =>
      obtain ⟨operation, found, rfl⟩ := Option.map_eq_some_iff.mp taken
      exact inv.complete found
  | dequeue worker => exact inv.dequeue prompt taken
  | dispatch worker => exact inv.dispatch prompt taken
  | expire fiber =>
      obtain ⟨timeout, rfl⟩ := expire_cases taken
      exact inv.timers _ s.cancelled _
  | timeout index =>
      obtain ⟨cancelled, timeouts, rfl⟩ |
        ⟨timeout, found, io, present, stage, cancelled, rfl⟩ := timeout_cases taken
      · exact inv.timers s.timer _ _
      · rw [State.cancelEvent_eq, prompt timeout present stage] at cancelled
        cases cancelled
        exact inv.timers s.timer s.cancelled _

omit [DecidableEq P] [DecidableEq F] [DecidableEq W] [DecidableEq C] [Fintype F] in
theorem Initial.inv (initial : Initial s) : Inv s := by
  have out {fiber : F} {stage : Stage} {call : Call P}
      (inside : s.frame fiber = .inside stage call) : False := by
    obtain ⟨result, outside⟩ := initial.frame fiber
    rw [outside] at inside
    cases inside
  have empty : ∀ fd event, s.io.slot fd event = none := by
    intro fd event
    unfold State.slot
    rw [show s.io.fdContexts fd = _ from initial.fdContexts]
    rfl
  refine ⟨⟨?_, ?_, ?_⟩, ?_, ?_, ?_, ?_, ?_, ?_, ?_, ?_, ?_⟩
  · intro fd event set
    rw [show s.io.fdContexts fd = _ from initial.fdContexts] at set
    cases set
  · intro fd event p held
    rw [empty] at held
    cases held
  · intro fd event other also p held
    rw [empty] at held
    cases held
  · exact fun fiber stage call inside => (out inside).elim
  · exact fun fiber stage call inside => (out inside).elim
  · exact fun fiber call inside => (out inside).elim
  · intro event p held
    rw [empty] at held
    cases held
  · exact fun fiber other stage also call second inside => (out inside).elim
  · exact fun fiber stage call inside => (out inside).elim
  · intro operation transit
    cases transit with
    | inflight operation member =>
        rw [initial.inflight] at member
        cases member
    | queue packet member =>
        rw [initial.queue] at member
        cases member
    | held worker packet held =>
        rw [initial.held] at held
        cases held
  · intro op member
    rw [initial.processed] at member
    cases member
  · exact fun fiber stage call inside => (out inside).elim

theorem inv_run (reached : Reach Initial (StepWhen step Prompt) s) : Inv s := by
  refine @Reach.invariant _ _ _ _ Inv ?_ ?_ _ reached
  · intro s initial
    exact initial.inv
  · rintro s action t inv ⟨prompt, taken⟩
    exact inv.step prompt taken

/-- In a run whose packets all come at the right moment, a fiber whose packet
was taken from the completion port has been scheduled. -/
theorem completion_wakes (reached : Reach Initial (StepWhen step Prompt) s)
    {fiber : F} {stage : Stage} {call : Call P}
    (inside : s.frame fiber = .inside stage call)
    (processed : call.op ∈ s.processed) : call.woken = true :=
  (inv_run reached).woken fiber stage call inside processed

def fresh : State Nat F W Unit where
  io := ⟨fun _ => .new, fun _ => .new, 0⟩
  frame _ := .out 0
  timer _ := false
  cancelled _ := false
  inflight := []
  queue := []
  held _ := none
  timeouts := []
  processed := []
  calls := 0

omit [DecidableEq F] [DecidableEq W] [Fintype F] in
theorem fresh_initial : Initial (fresh : State Nat F W Unit) :=
  ⟨rfl, fun _ => ⟨0, rfl⟩, fun _ => rfl, rfl, rfl, fun _ => rfl, rfl, rfl⟩

/-- The packet is dispatched after `addEvent`, by the second of two workers. -/
theorem completion_wakes_registered :
    ∃ (s : State Nat Unit Bool Unit) (call : Call Nat),
      s.frame () = .inside .waiting call ∧ call.op ∈ s.processed ∧
        call.woken = true := by
  obtain ⟨s, ran, inside, processed⟩ : ∃ s : State Nat Unit Bool Unit,
      exec (guarded step Prompt) fresh
        [.issue () .WRITE true 0 .pending, .run (), .complete 0 12 true,
          .dequeue true, .run (), .dispatch true] = some s ∧
      s.frame () = .inside .waiting ⟨0, 0, .WRITE, true, true⟩ ∧
      s.processed = [0] := ⟨_, rfl, rfl, rfl⟩
  have member : 0 ∈ s.processed := by simp [processed]
  exact ⟨s, _, inside, member, completion_wakes
    (reach_guarded (.start fresh fresh_initial) ran) inside member⟩

/-- The packet is dispatched before `addEvent`: the fiber is registered
afterwards and waits with nothing left to wake it. -/
theorem completion_dropped :
    ∃ (s : State Nat Unit Unit Unit) (call : Call Nat),
      Reach Initial (StepOf step) s ∧ s.frame () = .inside .waiting call ∧
        call.op ∈ s.processed ∧ call.woken = false ∧ s.inflight = [] ∧
        s.queue = [] ∧ s.held () = none ∧ s.timer () = false := by
  obtain ⟨s, ran, inside, processed, rest⟩ : ∃ s : State Nat Unit Unit Unit,
      exec step fresh
        [.issue () .READ false 0 .pending, .complete 0 12 true, .dequeue (),
          .dispatch (), .run (), .run ()] = some s ∧
      s.frame () = .inside .waiting ⟨0, 0, .READ, false, false⟩ ∧
      s.processed = [0] ∧ s.inflight = [] ∧ s.queue = [] ∧ s.held () = none ∧
      s.timer () = false := ⟨_, rfl, rfl, rfl, rfl, rfl, rfl, rfl⟩
  exact ⟨s, _, reach_exec (.start fresh fresh_initial) ran, inside,
    by simp [processed], rfl, rest⟩

end Sylar.IOManager.DoSocket
