import Mathlib.Data.Fintype.Basic
import Sylar.IOManager.Registered
import Sylar.Logic.Reach

namespace Sylar.IOManager.Lookup

open Logic

/-! `addEvent` from its lookup in `m_fdContexts` to its registration: the read
lock, `new FdContext`, the write lock and the mutex of the `FdContext` are taken
one after another, with other calls between them. `X` are the addresses of the
`FdContext`s. -/

structure Call (D P F C : Type) where
  fd : D
  event : Event
  event_ctx : P
  task : Task F C

inductive Stage (X : Type)
  | called
  /-- `m_fdContexts` had no context -/
  | missed
  /-- before the write lock -/
  | made (fd_ctx : X)
  | holding (fd_ctx : X) (isNew : Bool)
  | registered (fd_ctx : X)
  deriving DecidableEq, Repr

/-- From the lookup that finds nothing to the store. -/
def Stage.between : Stage X → Bool
  | .missed => true
  | .made _ => true
  | _ => false

/-- The `FdContext` that the call registers in. -/
def Stage.fd_ctx : Stage X → Option X
  | .holding fd_ctx _ => some fd_ctx
  | .registered fd_ctx => some fd_ctx
  | _ => none

structure State (K D X P F C : Type) where
  call : K → Call D P F C
  stage : K → Stage X
  fdContexts : D → Option X
  /-- the `FdContext`s by address -/
  io : IOManager.State X P F C
  /-- what was allocated, with the member `fd` of each -/
  allocated : X → Option D
  /-- the completion key of a descriptor that is associated with the port -/
  keys : D → Option X

inductive Action (K X : Type)
  | lookup (k : K)
  | make (k : K) (fd_ctx : X)
  | store (k : K)
  | register (k : K)

variable {K D X P F C : Type} [DecidableEq K] [DecidableEq D] [DecidableEq X]
  [DecidableEq P]

namespace State

def fd (s : State K D X P F C) (k : K) : D :=
  (s.call k).fd

def move (s : State K D X P F C) (k : K) (stage : Stage X) : State K D X P F C :=
  { s with stage := Function.update s.stage k stage }

/-- `CreateIoCompletionPort` fails for a descriptor that is associated. -/
def associate (s : State K D X P F C) (fd : D) (fd_ctx : X) :
    State K D X P F C :=
  match s.keys fd with
  | some _ => s
  | none => { s with keys := Function.update s.keys fd (some fd_ctx) }

def step (s : State K D X P F C) : Action K X → Option (State K D X P F C)
  | .lookup k =>
      match s.stage k with
      | .called =>
          match s.fdContexts (s.fd k) with
          | some fd_ctx => some (s.move k (.holding fd_ctx false))
          | none => some (s.move k .missed)
      | _ => none
  | .make k fd_ctx =>
      match s.stage k, s.allocated fd_ctx with
      | .missed, none =>
          some { s.move k (.made fd_ctx) with
            io := s.io.setFd fd_ctx .new
            allocated := Function.update s.allocated fd_ctx (some (s.fd k)) }
      | _, _ => none
  | .store k =>
      match s.stage k with
      | .made fd_ctx =>
          some { s.move k (.holding fd_ctx true) with
            fdContexts := Function.update s.fdContexts (s.fd k) (some fd_ctx) }
      | _ => none
  | .register k =>
      match s.stage k with
      | .holding fd_ctx isNew =>
          (s.io.addEvent fd_ctx (s.call k).event (s.call k).event_ctx
            (s.call k).task).map fun io =>
              let s := { s.move k (.registered fd_ctx) with io := io }
              if isNew then s.associate (s.fd k) fd_ctx else s
      | _ => none

/-- No call has begun. -/
structure Initial (s : State K D X P F C) : Prop where
  stage : ∀ k, s.stage k = .called
  fdContexts : ∀ fd, s.fdContexts fd = none
  io : ∀ fd_ctx, s.io.fdContexts fd_ctx = .new
  keys : ∀ fd, s.keys fd = none

/-- No lookup finds nothing while another call on the descriptor has yet to
store its context. -/
def Alone (s : State K D X P F C) : Action K X → Prop
  | .lookup k => s.fdContexts (s.fd k) = none →
      ∀ other, s.fd other = s.fd k → (s.stage other).between = false
  | _ => True

structure Inv (s : State K D X P F C) : Prop where
  alone : ∀ k other, (s.stage k).between = true →
    (s.stage other).between = true → s.fd k = s.fd other → k = other
  unmapped : ∀ k, (s.stage k).between = true → s.fdContexts (s.fd k) = none
  held : ∀ k fd_ctx, (s.stage k).fd_ctx = some fd_ctx →
    s.fdContexts (s.fd k) = some fd_ctx
  key : ∀ fd fd_ctx, s.keys fd = some fd_ctx → s.fdContexts fd = some fd_ctx
  first : ∀ fd fd_ctx, s.fdContexts fd = some fd_ctx →
    s.keys fd = some fd_ctx ∨
      ∃ k, s.fd k = fd ∧ s.stage k = .holding fd_ctx true
  made : ∀ k fd_ctx, s.stage k = .made fd_ctx →
    s.allocated fd_ctx = some (s.fd k)
  owner : ∀ fd fd_ctx, s.fdContexts fd = some fd_ctx →
    s.allocated fd_ctx = some fd
  set : ∀ fd_ctx event, (s.io.fdContexts fd_ctx).events event = true →
    ∃ k, s.stage k = .registered fd_ctx ∧ (s.call k).event = event
  kept : ∀ k fd_ctx, s.stage k = .registered fd_ctx →
    (s.io.fdContexts fd_ctx).events (s.call k).event = true

variable {s next : State K D X P F C} {k : K} {fd_ctx : X}

omit [DecidableEq D] [DecidableEq X] [DecidableEq P] in
theorem move_stage (stage : Stage X) (other : K) :
    (s.move k stage).stage other = if other = k then stage else s.stage other :=
  Function.update_apply ..

omit [DecidableEq K] [DecidableEq X] [DecidableEq P] in
theorem associate_eq (fd : D) (fd_ctx : X) :
    (s.associate fd fd_ctx).stage = s.stage ∧
      (s.associate fd fd_ctx).call = s.call ∧
      (s.associate fd fd_ctx).fdContexts = s.fdContexts ∧
      (s.associate fd fd_ctx).io = s.io ∧
      (s.associate fd fd_ctx).allocated = s.allocated ∧
      (s.associate fd fd_ctx).keys = Function.update s.keys fd
        (some ((s.keys fd).getD fd_ctx)) := by
  unfold associate
  split
  · rename_i key present
    refine ⟨rfl, rfl, rfl, rfl, rfl, ?_⟩
    rw [present, Option.getD_some, ← present, Function.update_eq_self]
  · rename_i absent
    refine ⟨rfl, rfl, rfl, rfl, rfl, ?_⟩
    rw [absent]
    rfl

/-- What each section does: call `k` goes on to `stage`, what is stored stays, and
what is new in the map, in the port and in the `FdContext`s is its own. -/
structure Goes (s next : State K D X P F C) (k : K) (stage : Stage X) : Prop where
  call : next.call = s.call
  stages : ∀ other, next.stage other = if other = k then stage else s.stage other
  before : ∀ fd_ctx, s.stage k ≠ .registered fd_ctx
  alone : stage.between = true → s.fdContexts (s.fd k) = none ∧
    ∀ other, other ≠ k → s.fd other = s.fd k → (s.stage other).between = false
  holds : ∀ fd_ctx, stage.fd_ctx = some fd_ctx →
    next.fdContexts (s.fd k) = some fd_ctx
  mapped : ∀ fd fd_ctx, s.fdContexts fd = some fd_ctx →
    next.fdContexts fd = some fd_ctx
  maps : ∀ fd fd_ctx, next.fdContexts fd = some fd_ctx →
    s.fdContexts fd = some fd_ctx ∨
      fd = s.fd k ∧ s.stage k = .made fd_ctx ∧ stage = .holding fd_ctx true
  keyed : ∀ fd fd_ctx, s.keys fd = some fd_ctx → next.keys fd = some fd_ctx
  keys : ∀ fd fd_ctx, next.keys fd = some fd_ctx →
    s.keys fd = some fd_ctx ∨ s.fdContexts fd = some fd_ctx
  associates : ∀ fd_ctx, s.stage k = .holding fd_ctx true →
    ∃ key, next.keys (s.fd k) = some key
  allocated : ∀ fd_ctx fd, s.allocated fd_ctx = some fd →
    next.allocated fd_ctx = some fd
  makes : ∀ fd_ctx, stage = .made fd_ctx → next.allocated fd_ctx = some (s.fd k)
  events : ∀ fd_ctx fd event, s.allocated fd_ctx = some fd →
    (s.io.fdContexts fd_ctx).events event = true →
    (next.io.fdContexts fd_ctx).events event = true
  registers : ∀ fd_ctx, stage = .registered fd_ctx →
    (next.io.fdContexts fd_ctx).events (s.call k).event = true
  sets : ∀ fd_ctx event, (next.io.fdContexts fd_ctx).events event = true →
    (s.io.fdContexts fd_ctx).events event = true ∨
      stage = .registered fd_ctx ∧ (s.call k).event = event

section Goes

variable {stage : Stage X}

omit [DecidableEq D] [DecidableEq X] [DecidableEq P] in
theorem Goes.fd (goes : Goes s next k stage) : next.fd = s.fd := by
  unfold State.fd
  rw [goes.call]

omit [DecidableEq D] [DecidableEq X] [DecidableEq P] in
theorem Goes.stage_self (goes : Goes s next k stage) : next.stage k = stage := by
  rw [goes.stages, if_pos rfl]

omit [DecidableEq D] [DecidableEq X] [DecidableEq P] in
theorem Goes.stage_ne (goes : Goes s next k stage) {other : K}
    (different : other ≠ k) :
    next.stage other = s.stage other := by
  rw [goes.stages, if_neg different]

omit [DecidableEq D] [DecidableEq X] [DecidableEq P] in
theorem Goes.unmapped (goes : Goes s next k stage) (inv : s.Inv) {other : K}
    (inside : (next.stage other).between = true) :
    next.fdContexts (s.fd other) = none := by
  have absent : s.fdContexts (s.fd other) = none := by
    rcases eq_or_ne other k with rfl | different
    · rw [goes.stage_self] at inside
      exact (goes.alone inside).1
    · rw [goes.stage_ne different] at inside
      exact inv.unmapped other inside
  refine Option.eq_none_iff_forall_ne_some.mpr fun fd_ctx present => ?_
  rcases goes.maps _ _ present with before | ⟨same, made, stored⟩
  · rw [absent] at before
    cases before
  · have different : other ≠ k := by
      rintro rfl
      rw [goes.stage_self, stored] at inside
      cases inside
    rw [goes.stage_ne different] at inside
    exact different (inv.alone other k inside (by rw [made]; rfl) same)

omit [DecidableEq D] [DecidableEq X] [DecidableEq P] in
theorem Goes.inv (goes : Goes s next k stage) (inv : s.Inv) : next.Inv where
  alone := by
    have apart {other : K} (here : (next.stage k).between = true)
        (there : (next.stage other).between = true) (same : s.fd other = s.fd k) :
        other = k := by
      by_contra different
      rw [goes.stage_self] at here
      rw [goes.stage_ne different, (goes.alone here).2 other different same] at there
      cases there
    intro one other inside also same
    rw [goes.fd] at same
    rcases eq_or_ne one k with rfl | first
    · exact (apart inside also same.symm).symm
    · rcases eq_or_ne other k with rfl | second
      · exact apart also inside same
      · rw [goes.stage_ne first] at inside
        rw [goes.stage_ne second] at also
        exact inv.alone one other inside also same
  unmapped := by
    rw [goes.fd]
    exact fun one inside => goes.unmapped inv inside
  held := by
    intro one held
    rw [goes.fd]
    rcases eq_or_ne one k with rfl | different
    · rw [goes.stage_self]
      exact goes.holds held
    · rw [goes.stage_ne different]
      exact fun holding => goes.mapped _ _ (inv.held one held holding)
  key := by
    intro fd held present
    rcases goes.keys fd held present with key | mapped
    · exact goes.mapped _ _ (inv.key fd held key)
    · exact goes.mapped _ _ mapped
  first := by
    intro fd held present
    rw [goes.fd]
    rcases goes.maps fd held present with before | ⟨rfl, -, stored⟩
    · rcases inv.first fd held before with key | ⟨one, rfl, holding⟩
      · exact .inl (goes.keyed fd held key)
      · rcases eq_or_ne one k with rfl | different
        · obtain ⟨key, associated⟩ := goes.associates held holding
          have mapped : s.fdContexts (s.fd one) = some key :=
            (goes.keys _ _ associated).elim (inv.key _ key) id
          cases before.symm.trans mapped
          exact .inl associated
        · exact .inr ⟨one, rfl, (goes.stage_ne different).trans holding⟩
    · exact .inr ⟨k, rfl, goes.stage_self.trans stored⟩
  made := by
    intro one held
    rw [goes.fd]
    rcases eq_or_ne one k with rfl | different
    · rw [goes.stage_self]
      exact goes.makes held
    · rw [goes.stage_ne different]
      exact fun made => goes.allocated _ _ (inv.made one held made)
  owner := by
    intro fd held present
    rcases goes.maps fd held present with before | ⟨rfl, made, -⟩
    · exact goes.allocated _ _ (inv.owner fd held before)
    · exact goes.allocated _ _ (inv.made k held made)
  set := by
    intro held event present
    rw [goes.call]
    rcases goes.sets held event present with before | ⟨registered, same⟩
    · obtain ⟨one, registered, same⟩ := inv.set held event before
      have different : one ≠ k := by
        rintro rfl
        exact goes.before held registered
      exact ⟨one, (goes.stage_ne different).trans registered, same⟩
    · exact ⟨k, goes.stage_self.trans registered, same⟩
  kept := by
    intro one held
    rw [goes.call]
    rcases eq_or_ne one k with rfl | different
    · rw [goes.stage_self]
      exact goes.registers held
    · rw [goes.stage_ne different]
      intro registered
      have mapped := inv.held one held (by rw [registered]; rfl)
      exact goes.events held _ _ (inv.owner _ held mapped)
        (inv.kept one held registered)

omit [DecidableEq D] [DecidableEq X] [DecidableEq P] in
/-- A lookup that finds a context, or finds none. -/
theorem goes_lookup (called : s.stage k = .called)
    (plain : ∀ fd_ctx, stage ≠ .made fd_ctx ∧ stage ≠ .registered fd_ctx)
    (alone : stage.between = true → s.fdContexts (s.fd k) = none ∧
      ∀ other, s.fd other = s.fd k → (s.stage other).between = false)
    (holds : ∀ fd_ctx, stage.fd_ctx = some fd_ctx →
      s.fdContexts (s.fd k) = some fd_ctx) : Goes s (s.move k stage) k stage where
  call := rfl
  stages := move_stage stage
  before fd_ctx := by simp [called]
  alone inside := ⟨(alone inside).1, fun other _ => (alone inside).2 other⟩
  holds := holds
  mapped _ _ present := present
  maps _ _ present := .inl present
  keyed _ _ present := present
  keys _ _ present := .inl present
  associates fd_ctx := by simp [called]
  allocated _ _ present := present
  makes fd_ctx made := absurd made (plain fd_ctx).1
  events _ _ _ _ set := set
  registers fd_ctx registered := absurd registered (plain fd_ctx).2
  sets _ _ set := .inl set

omit [DecidableEq D] [DecidableEq P] in
theorem goes_make (inv : s.Inv) (missed : s.stage k = .missed)
    (free : s.allocated fd_ctx = none) :
    Goes s { s.move k (.made fd_ctx) with
      io := s.io.setFd fd_ctx .new
      allocated := Function.update s.allocated fd_ctx (some (s.fd k)) } k
      (.made fd_ctx) := by
  have inside : (s.stage k).between = true := by rw [missed]; rfl
  have elsewhere {held : X} {fd : D} (owned : s.allocated held = some fd) :
      held ≠ fd_ctx := by
    rintro rfl
    rw [free] at owned
    cases owned
  refine {
    call := rfl
    stages := move_stage _
    before := by simp [missed]
    alone := fun _ => ⟨inv.unmapped k inside, fun other different same => ?_⟩
    holds := fun held none => absurd none (by simp [Stage.fd_ctx])
    mapped := fun _ _ present => present
    maps := fun _ _ present => .inl present
    keyed := fun _ _ present => present
    keys := fun _ _ present => .inl present
    associates := by simp [missed]
    allocated := fun held fd owned => ?_
    makes := ?_
    events := fun held fd event owned set => ?_
    registers := fun held none => absurd none (by simp)
    sets := fun held event set => ?_ }
  · exact eq_false_of_ne_true fun also =>
      different (inv.alone other k also inside same)
  · exact (Function.update_of_ne (elsewhere owned) _ _).trans owned
  · rintro _ ⟨⟩
    exact Function.update_self _ _ _
  · rwa [IOManager.State.setFd_of_ne (elsewhere owned)]
  · rcases eq_or_ne held fd_ctx with rfl | different
    · rw [IOManager.State.setFd_self] at set
      cases set
    · rw [IOManager.State.setFd_of_ne different] at set
      exact .inl set

omit [DecidableEq X] [DecidableEq P] in
theorem goes_store (inv : s.Inv) (made : s.stage k = .made fd_ctx) :
    Goes s { s.move k (.holding fd_ctx true) with
      fdContexts := Function.update s.fdContexts (s.fd k) (some fd_ctx) } k
      (.holding fd_ctx true) := by
  have absent := inv.unmapped k (by rw [made]; rfl)
  refine {
    call := rfl
    stages := move_stage _
    before := by simp [made]
    alone := fun inside => absurd inside Bool.false_ne_true
    holds := ?_
    mapped := fun fd held present => ?_
    maps := fun fd held present => ?_
    keyed := fun _ _ present => present
    keys := fun _ _ present => .inl present
    associates := by simp [made]
    allocated := fun _ _ owned => owned
    makes := fun held none => absurd none (by simp)
    events := fun _ _ _ _ set => set
    registers := fun held none => absurd none (by simp)
    sets := fun _ _ set => .inl set }
  · rintro _ ⟨⟩
    exact Function.update_self _ _ _
  · have elsewhere : fd ≠ s.fd k := by
      rintro rfl
      rw [absent] at present
      cases present
    exact (Function.update_of_ne elsewhere _ _).trans present
  · rcases eq_or_ne fd (s.fd k) with rfl | elsewhere
    · cases (Function.update_self (s.fd k) _ s.fdContexts).symm.trans present
      exact .inr ⟨rfl, made, rfl⟩
    · exact .inl ((Function.update_of_ne elsewhere _ _).symm.trans present)

theorem goes_register (inv : s.Inv) {isNew : Bool}
    (holding : s.stage k = .holding fd_ctx isNew)
    {io : IOManager.State X P F C}
    (added : s.io.addEvent fd_ctx (s.call k).event (s.call k).event_ctx
      (s.call k).task = some io)
    (stage : next.stage = (s.move k (.registered fd_ctx)).stage)
    (call : next.call = s.call) (fdContexts : next.fdContexts = s.fdContexts)
    (after : next.io = io) (allocated : next.allocated = s.allocated)
    (keys : next.keys = if isNew then Function.update s.keys (s.fd k)
      (some ((s.keys (s.fd k)).getD fd_ctx)) else s.keys) :
    Goes s next k (.registered fd_ctx) := by
  have owned : s.fdContexts (s.fd k) = some fd_ctx :=
    inv.held k fd_ctx (by rw [holding]; rfl)
  refine {
    call := call
    stages := fun other => by rw [stage, move_stage]
    before := by simp [holding]
    alone := fun inside => absurd inside Bool.false_ne_true
    holds := ?_
    mapped := fun fd held present => by rwa [fdContexts]
    maps := fun fd held present => .inl (by rwa [fdContexts] at present)
    keyed := fun fd held present => ?_
    keys := fun fd held => ?_
    associates := ?_
    allocated := fun held fd present => by rwa [allocated]
    makes := fun held none => absurd none (by simp)
    events := fun held fd event _ set => ?_
    registers := ?_
    sets := fun held event set => ?_ }
  · rintro _ ⟨⟩
    rwa [fdContexts]
  · rw [keys]
    split
    · rcases eq_or_ne fd (s.fd k) with rfl | elsewhere
      · rw [Function.update_self, present]
        rfl
      · rwa [Function.update_of_ne elsewhere]
    · exact present
  · rw [keys]
    split
    · rcases eq_or_ne fd (s.fd k) with rfl | elsewhere
      · rw [Function.update_self]
        rintro ⟨⟩
        cases key : s.keys (s.fd k) with
        | none => exact .inr owned
        | some first => exact .inl rfl
      · rw [Function.update_of_ne elsewhere]
        exact .inl
    · exact .inl
  · intro held also
    cases holding.symm.trans also
    exact ⟨_, by rw [keys, if_pos rfl, Function.update_self]⟩
  · rw [after, IOManager.State.addEvent_events added, set, ite_self]
  · rintro _ ⟨⟩
    rw [after, IOManager.State.addEvent_events added, if_pos ⟨rfl, rfl⟩]
  · rw [after, IOManager.State.addEvent_events added] at set
    split at set
    · rename_i here
      exact .inr ⟨by rw [here.1], here.2.symm⟩
    · exact .inl set

end Goes

omit [DecidableEq K] [DecidableEq D] [DecidableEq X] [DecidableEq P] in
theorem Initial.inv (initial : s.Initial) : s.Inv := by
  have stage := initial.stage
  have unmapped := initial.fdContexts
  constructor <;> intros <;> simp_all [Stage.between, Stage.fd_ctx, initial.io,
    initial.keys, FdContext.new]

theorem inv_step {action : Action K X} (inv : s.Inv) (alone : s.Alone action)
    (taken : s.step action = some next) : next.Inv := by
  cases action with
  | lookup k =>
      simp only [step] at taken
      split at taken
      · rename_i called
        split at taken
        · rename_i fd_ctx mapped
          cases taken
          refine (goes_lookup called (by simp) ?_ ?_).inv inv
          · exact fun here => absurd here Bool.false_ne_true
          · rintro _ ⟨⟩
            exact mapped
        · rename_i unmapped
          cases taken
          refine (goes_lookup called (by simp) ?_ ?_).inv inv
          · exact fun _ => ⟨unmapped, alone unmapped⟩
          · rintro _ ⟨⟩
      · cases taken
  | make k fd_ctx =>
      simp only [step] at taken
      split at taken
      · rename_i missed free
        cases taken
        exact (goes_make inv missed free).inv inv
      · cases taken
  | store k =>
      simp only [step] at taken
      split at taken
      · rename_i fd_ctx made
        cases taken
        exact (goes_store inv made).inv inv
      · cases taken
  | register k =>
      simp only [step] at taken
      split at taken
      · rename_i fd_ctx isNew holding
        obtain ⟨io, added, rfl⟩ := Option.map_eq_some_iff.mp taken
        cases isNew with
        | false =>
            exact Goes.inv
              (goes_register inv holding added rfl rfl rfl rfl rfl rfl) inv
        | true =>
            obtain ⟨stage, call, fdContexts, after, allocated, keys⟩ :=
              @associate_eq _ _ _ _ _ _ _
                { s.move k (.registered fd_ctx) with io := io } (s.fd k) fd_ctx
            exact (goes_register inv holding added stage call fdContexts after
              allocated keys).inv inv
      · cases taken

theorem inv_run (reached : Reach Initial (StepWhen step Alone) s) : s.Inv :=
  @Reach.invariant _ _ _ _ Inv (fun _ initial => initial.inv)
    (fun _ _ _ inv taken => inv_step inv taken.1 taken.2) s reached

/-- A call that has returned has registered its event in the context that
`m_fdContexts` has for the descriptor, and no other is a completion key; it is
the key when all calls on the descriptor have returned; and every event bit is
the one of such a call. -/
theorem one_context (reached : Reach Initial (StepWhen step Alone) s) :
    (∀ k fd_ctx, s.stage k = .registered fd_ctx →
      s.fdContexts (s.fd k) = some fd_ctx ∧
      (s.io.fdContexts fd_ctx).events (s.call k).event = true ∧
      ∀ key, s.keys (s.fd k) = some key → key = fd_ctx) ∧
    (∀ k, (∀ other, s.fd other = s.fd k →
        ∃ fd_ctx, s.stage other = .registered fd_ctx) →
      ∃ fd_ctx, s.fdContexts (s.fd k) = some fd_ctx ∧
        s.keys (s.fd k) = some fd_ctx ∧
        ∀ other, s.fd other = s.fd k → s.stage other = .registered fd_ctx) ∧
    ∀ fd_ctx event, (s.io.fdContexts fd_ctx).events event = true →
      ∃ k, s.stage k = .registered fd_ctx ∧ (s.call k).event = event ∧
        s.fdContexts (s.fd k) = some fd_ctx := by
  have inv := inv_run reached
  have mapped : ∀ {k fd_ctx}, s.stage k = .registered fd_ctx →
      s.fdContexts (s.fd k) = some fd_ctx := by
    intro k fd_ctx registered
    exact inv.held k fd_ctx (by rw [registered]; rfl)
  refine ⟨?_, ?_, ?_⟩
  · intro k fd_ctx registered
    refine ⟨mapped registered, inv.kept k fd_ctx registered, fun key present => ?_⟩
    exact Option.some.inj ((inv.key _ key present).symm.trans (mapped registered))
  · intro k returned
    obtain ⟨fd_ctx, registered⟩ := returned k rfl
    refine ⟨fd_ctx, mapped registered, ?_, ?_⟩
    · rcases inv.first _ _ (mapped registered) with key | ⟨other, same, holding⟩
      · exact key
      · obtain ⟨also, done⟩ := returned other same
        rw [holding] at done
        cases done
    · intro other same
      obtain ⟨also, done⟩ := returned other same
      have here := mapped done
      rw [same, mapped registered] at here
      cases here
      exact done
  · intro fd_ctx event present
    obtain ⟨k, registered, same⟩ := inv.set fd_ctx event present
    exact ⟨k, registered, same, mapped registered⟩

end State

open Lookup.State

/-- The first receive and the first send of a connection. -/
def connection : State Bool Unit Nat Nat Nat Unit where
  call k := if k then ⟨(), .WRITE, 2, .fiber 8⟩ else ⟨(), .READ, 1, .fiber 7⟩
  stage _ := .called
  fdContexts _ := none
  io := ⟨fun _ => .new, fun _ => .new, 0⟩
  allocated _ := none
  keys _ := none

theorem connection_initial : Initial connection :=
  ⟨fun _ => rfl, fun _ => rfl, fun _ => rfl, fun _ => rfl⟩

instance [Fintype K] (s : State K D X P F C) :
    (action : Action K X) → Decidable (s.Alone action)
  | .lookup k => inferInstanceAs (Decidable (s.fdContexts (s.fd k) = none →
      ∀ other, s.fd other = s.fd k → (s.stage other).between = false))
  | .make _ _ => inferInstanceAs (Decidable True)
  | .store _ => inferInstanceAs (Decidable True)
  | .register _ => inferInstanceAs (Decidable True)

/-- The send looks up after the receive has stored, and registers first. -/
theorem one_context_connection :
    ∃ s : State Bool Unit Nat Nat Nat Unit,
      s.stage false = .registered 5 ∧ s.stage true = .registered 5 ∧
      s.fdContexts () = some 5 ∧
      ∀ key, s.keys () = some key → key = 5 := by
  obtain ⟨s, ran, read, write, call⟩ : ∃ s,
      exec (guarded step Alone) connection
        [.lookup false, .make false 5, .store false, .lookup true,
          .register true, .register false] = some s ∧
      s.stage false = .registered 5 ∧ s.stage true = .registered 5 ∧
      s.fd false = () := ⟨_, rfl, rfl, rfl, rfl⟩
  obtain ⟨mapped, -, key⟩ := (one_context
    (reach_guarded (.start _ connection_initial) ran)).1 false 5 read
  exact ⟨s, read, write, mapped, key⟩

/-- Both lookups come before either store. The receive waits in a context that
`delEvent` does not see, the completion of the send arrives with the key of that
context and wakes nobody. -/
theorem two_contexts :
    ∃ s : State Bool Unit Nat Nat Nat Unit,
      Reach Initial (StepOf step) s ∧
      s.stage false = .registered 5 ∧ s.stage true = .registered 6 ∧
      s.fdContexts () = some 6 ∧ s.keys () = some 5 ∧
      (s.io.fdContexts 5).events .READ = true ∧
      (s.io.fdContexts 6).events .WRITE = true ∧
      (s.io.delEvent 6 .READ).1 = false ∧
      (s.io.dispatch 5 2 12).map (·.2) = some ([], none) := by
  obtain ⟨s, ran, rest⟩ : ∃ s,
      exec step connection
        [.lookup false, .lookup true, .make false 5, .make true 6, .store false,
          .store true, .register false, .register true] = some s ∧
      s.stage false = .registered 5 ∧ s.stage true = .registered 6 ∧
      s.fdContexts () = some 6 ∧ s.keys () = some 5 ∧
      (s.io.fdContexts 5).events .READ = true ∧
      (s.io.fdContexts 6).events .WRITE = true ∧
      (s.io.delEvent 6 .READ).1 = false ∧
      (s.io.dispatch 5 2 12).map (·.2) = some ([], none) :=
    ⟨_, rfl, rfl, rfl, rfl, rfl, rfl, rfl, rfl, rfl⟩
  exact ⟨s, reach_exec (.start _ connection_initial) ran, rest⟩

end Sylar.IOManager.Lookup
