import Mathlib.Data.Fintype.Basic
import Mathlib.Logic.Function.Basic
import Sylar.Hook.FdManager
import Sylar.IOManager.Model
import Sylar.Logic.Reach

namespace Sylar.Handles

open Socket Socket.Counts IOManager

/-! Sockets that are opened, used and closed by any number of fibers, down to the
sections that take a lock. The system may give out a handle again as soon as it is
closed; the sockets are numbered in the order they were opened in, whatever their
handle. `T` are the fibers and `D` the handles; the `FdCtx`s and the `FdContext`s
go by address. -/

/-- What a fiber has still to do in the call it is in. -/
inductive Stage (D : Type)
  | idle
  /-- `s_socket`, before `get` -/
  | opened (fd : D)
  /-- `get` has found no `FdCtx` -/
  | missed (fd : D)
  /-- `s_setsockopt` on a socket, with the `FdCtx` it has got -/
  | setting (ctx k : Nat) (type : SockOpt) (v : Int64)
  /-- `addEvent` has found no `FdContext` -/
  | inserting (fd : D) (event : Event)
  /-- `addEvent`, before the mutex of the `FdContext` -/
  | registering (fd : D) (fd_ctx : Nat) (event : Event) (isNew : Bool)
  /-- `YieldToHold` behind `addEvent` on the socket `k` -/
  | waiting (k : Nat) (fd : D) (fd_ctx : Nat) (event : Event)
  /-- `s_closesocket`, before `cancelAll` -/
  | cancelling (fd : D)
  /-- before `del` -/
  | deleting (fd : D)
  /-- before `closesocket_f` -/
  | closing (fd : D)
  deriving DecidableEq

namespace Stage

variable {D : Type}

/-- The handle that is being opened or closed. -/
def turns : Stage D → Option D
  | .opened fd => some fd
  | .missed fd => some fd
  | .cancelling fd => some fd
  | .deleting fd => some fd
  | .closing fd => some fd
  | _ => none

/-- The handle on which `addEvent` is between two sections. -/
def adds : Stage D → Option D
  | .inserting fd _ => some fd
  | .registering fd _ _ _ => some fd
  | _ => none

/-- The `FdContext` in which the fiber waits, and for what. -/
def waits : Stage D → Option (Nat × Event)
  | .waiting _ _ fd_ctx event => some (fd_ctx, event)
  | _ => none

end Stage

structure State (T D : Type) where
  stage : T → Stage D
  /-- `t_hook_enable` of the thread the fiber runs on -/
  hook : T → Bool
  /-- the socket that is open under a handle -/
  handle : D → Option Nat
  /-- how many sockets have been opened -/
  sockets : Nat
  /-- the handle a socket was given -/
  given : Nat → Option D
  /-- the completion key of a socket that is associated with the port -/
  port : Nat → Option Nat
  /-- `m_datas`, to the `FdCtx`s -/
  datas : D → Option Nat
  ctx : Nat → FdCtx
  /-- how many `FdCtx`s have been made -/
  made : Nat
  /-- what a timeout of a socket was last set to -/
  last : Nat → SockOpt → Int64
  /-- `m_fdContexts`, to the `FdContext`s -/
  fdContexts : D → Option Nat
  /-- how many `FdContext`s have been made -/
  contexts : Nat
  /-- the fiber in `read` or `write` of a context that has the event -/
  events : Nat → Event → Option T

inductive Action (T D : Type)
  | socket (t : T) (fd : D)
  | get (t : T)
  | create (t : T) (isSocket : Bool)
  | setTimeout (t : T) (fd : D) (type : SockOpt) (v : Int64)
  | store (t : T)
  | addEvent (t : T) (fd : D) (event : Event)
  | insert (t : T)
  | register (t : T)
  /-- the completion of the operation is dequeued -/
  | complete (t : T)
  /-- the timer of the operation calls `cancelEvent` -/
  | expire (t : T)
  | closesocket (t : T) (fd : D)
  | cancelAll (t : T)
  | del (t : T)
  | release (t : T)

variable {T D : Type} [DecidableEq T] [DecidableEq D]

namespace State

variable (s : State T D)

def move (t : T) (stage : Stage D) : State T D :=
  { s with stage := Function.update s.stage t stage }

/-- `socket_f` has returned `fd`. -/
def opens (fd : D) : State T D :=
  { s with
    handle := Function.update s.handle fd (some s.sockets)
    sockets := s.sockets + 1
    given := Function.update s.given s.sockets (some fd) }

/-- The write section of `get`. -/
def create (fd : D) (isSocket : Bool) : State T D :=
  { s with
    datas := Function.update s.datas fd (some s.made)
    ctx := Function.update s.ctx s.made (.new isSocket)
    made := s.made + 1 }

/-- `ctx->setTimeout`, called on the socket `k`. -/
def store (ctx k : Nat) (type : SockOpt) (v : Int64) : State T D :=
  { s with
    ctx := Function.update s.ctx ctx ((s.ctx ctx).setTimeout type (stored v))
    last := Function.update s.last k (Function.update (s.last k) type v) }

/-- `CreateIoCompletionPort` fails for a socket that is associated. -/
def associate (fd : D) (fd_ctx : Nat) : State T D :=
  match s.handle fd with
  | none => s
  | some k =>
      match s.port k with
      | some _ => s
      | none => { s with port := Function.update s.port k (some fd_ctx) }

/-- The last section of `addEvent`, on the socket `k`. -/
def register (t : T) (k : Nat) (fd : D) (fd_ctx : Nat) (event : Event)
    (isNew : Bool) : State T D :=
  { if isNew then s.associate fd fd_ctx else s with
    events := Function.update s.events fd_ctx
      (Function.update (s.events fd_ctx) event (some t))
    stage := Function.update s.stage t (.waiting k fd fd_ctx event) }

/-- `triggerEvent`, if the context has the event. -/
def trigger (fd_ctx : Nat) (event : Event) : State T D :=
  match s.events fd_ctx event with
  | none => s
  | some t =>
      { s with
        events := Function.update s.events fd_ctx
          (Function.update (s.events fd_ctx) event none)
        stage := Function.update s.stage t .idle }

def cancelAll (fd : D) : State T D :=
  match s.fdContexts fd with
  | none => s
  | some fd_ctx => (s.trigger fd_ctx .READ).trigger fd_ctx .WRITE

/-- `s_closesocket` goes on to `cancelAll` and `del` if there is an `FdCtx`. -/
def closesocket (t : T) (fd : D) : State T D :=
  match s.hook t, s.datas fd with
  | true, some _ => s.move t (.cancelling fd)
  | _, _ => s.move t (.closing fd)

def step : Action T D → Option (State T D)
  | .socket t fd =>
      match s.stage t, s.handle fd with
      | .idle, none =>
          some ((s.opens fd).move t (if s.hook t then .opened fd else .idle))
      | _, _ => none
  | .get t =>
      match s.stage t with
      | .opened fd =>
          some (s.move t (if (s.datas fd).isSome then .idle else .missed fd))
      | _ => none
  | .create t isSocket =>
      match s.stage t with
      | .missed fd => some ((s.create fd isSocket).move t .idle)
      | _ => none
  | .setTimeout t fd type v =>
      match s.stage t, s.hook t, s.datas fd with
      | .idle, true, some ctx =>
          some (s.move t (.setting ctx ((s.handle fd).getD s.sockets) type v))
      | .idle, _, _ => some s
      | _, _, _ => none
  | .store t =>
      match s.stage t with
      | .setting ctx k type v => some ((s.store ctx k type v).move t .idle)
      | _ => none
  | .addEvent t fd event =>
      match s.stage t with
      | .idle =>
          some (s.move t
            (match s.fdContexts fd with
            | some fd_ctx => .registering fd fd_ctx event false
            | none => .inserting fd event))
      | _ => none
  | .insert t =>
      match s.stage t with
      | .inserting fd event =>
          some (({ s with
            fdContexts := Function.update s.fdContexts fd (some s.contexts)
            contexts := s.contexts + 1 }).move t
              (.registering fd s.contexts event true))
      | _ => none
  | .register t =>
      match s.stage t with
      | .registering fd fd_ctx event isNew =>
          match s.events fd_ctx event with
          | none =>
              some (s.register t ((s.handle fd).getD s.sockets) fd fd_ctx event isNew)
          | some _ => none
      | _ => none
  | .complete t =>
      match s.stage t with
      | .waiting k fd fd_ctx event =>
          if s.handle fd = some k ∧ s.port k = some fd_ctx ∧
              s.events fd_ctx event = some t then some (s.trigger fd_ctx event)
          else none
      | _ => none
  | .expire t =>
      match s.stage t with
      | .waiting _ fd _ event =>
          match s.fdContexts fd with
          | some fd_ctx => some (s.trigger fd_ctx event)
          | none => some s
      | _ => none
  | .closesocket t fd =>
      match s.stage t with
      | .idle => some (s.closesocket t fd)
      | _ => none
  | .cancelAll t =>
      match s.stage t with
      | .cancelling fd => some ((s.cancelAll fd).move t (.deleting fd))
      | _ => none
  | .del t =>
      match s.stage t with
      | .deleting fd =>
          some (({ s with
            datas := Function.update s.datas fd none }).move t (.closing fd))
      | _ => none
  | .release t =>
      match s.stage t with
      | .closing fd =>
          some (({ s with
            handle := Function.update s.handle fd none }).move t .idle)
      | _ => none

/-- `Socket::getRecvTimeout` and `getSendTimeout`. -/
def getTimeout (fd : D) (type : SockOpt) : Int64 :=
  match s.datas fd with
  | some ctx => ((s.ctx ctx).getTimeout type).toInt64
  | none => -1

/-- Nothing has been opened yet, and every fiber is on a thread of the
scheduler. -/
structure Initial (s : State T D) : Prop where
  stage : ∀ t, s.stage t = .idle
  hook : ∀ t, s.hook t = true
  handle : ∀ fd, s.handle fd = none
  sockets : s.sockets = 0
  given : ∀ k, s.given k = none
  port : ∀ k, s.port k = none
  datas : ∀ fd, s.datas fd = none
  made : s.made = 0
  last : ∀ k type, s.last k type = -1
  fdContexts : ∀ fd, s.fdContexts fd = none
  events : ∀ fd_ctx event, s.events fd_ctx event = none

/-- `s_socket` has returned the handle, and `s_closesocket` has not been called
on it. -/
def Live (fd : D) : Prop :=
  (s.handle fd).isSome = true ∧ ∀ t, (s.stage t).turns ≠ some fd

/-- A socket is used between its opening and its closing, the closing waits until
it is registered everywhere, and the timeouts are of 32 bits. -/
def Proper (s : State T D) : Action T D → Prop
  | .setTimeout _ fd _ v => s.Live fd ∧ Fits v
  | .addEvent _ fd _ => s.Live fd
  | .closesocket _ fd => s.Live fd ∧ ∀ t, (s.stage t).adds ≠ some fd
  | _ => True

section Decide

variable [Fintype T]

instance (fd : D) : Decidable (s.Live fd) :=
  inferInstanceAs (Decidable (_ ∧ _))

instance (action : Action T D) : Decidable (Proper s action) :=
  match action with
  | .setTimeout _ fd _ v => inferInstanceAs (Decidable (s.Live fd ∧ Fits v))
  | .addEvent _ fd _ => inferInstanceAs (Decidable (s.Live fd))
  | .closesocket _ fd =>
      inferInstanceAs (Decidable (s.Live fd ∧ ∀ t, (s.stage t).adds ≠ some fd))
  | .socket _ _ | .get _ | .create _ _ | .store _ | .insert _ | .register _
  | .complete _ | .expire _ | .cancelAll _ | .del _ | .release _ =>
      isTrue trivial

end Decide

variable {s} {next : State T D} {action : Action T D}

/-- The steps of fibers on threads of the scheduler. -/
inductive Taken (s : State T D) : Action T D → State T D → Prop
  | socket (t : T) (fd : D) (idle : s.stage t = .idle)
      (free : s.handle fd = none) :
      Taken s (.socket t fd) ((s.opens fd).move t (.opened fd))
  | found (t : T) (fd : D) (opened : s.stage t = .opened fd)
      (found : (s.datas fd).isSome = true) : Taken s (.get t) (s.move t .idle)
  | missed (t : T) (fd : D) (opened : s.stage t = .opened fd)
      (missed : s.datas fd = none) : Taken s (.get t) (s.move t (.missed fd))
  | create (t : T) (fd : D) (isSocket : Bool) (missed : s.stage t = .missed fd) :
      Taken s (.create t isSocket) ((s.create fd isSocket).move t .idle)
  | setTimeout (t : T) (fd : D) (type : SockOpt) (v : Int64) (ctx : Nat)
      (idle : s.stage t = .idle) (found : s.datas fd = some ctx) :
      Taken s (.setTimeout t fd type v)
        (s.move t (.setting ctx ((s.handle fd).getD s.sockets) type v))
  | ignored (action : Action T D) : Taken s action s
  | store (t : T) (ctx k : Nat) (type : SockOpt) (v : Int64)
      (setting : s.stage t = .setting ctx k type v) :
      Taken s (.store t) ((s.store ctx k type v).move t .idle)
  | known (t : T) (fd : D) (event : Event) (fd_ctx : Nat) (idle : s.stage t = .idle)
      (known : s.fdContexts fd = some fd_ctx) :
      Taken s (.addEvent t fd event) (s.move t (.registering fd fd_ctx event false))
  | new (t : T) (fd : D) (event : Event) (idle : s.stage t = .idle)
      (new : s.fdContexts fd = none) :
      Taken s (.addEvent t fd event) (s.move t (.inserting fd event))
  | insert (t : T) (fd : D) (event : Event)
      (inserting : s.stage t = .inserting fd event) :
      Taken s (.insert t)
        (({ s with
          fdContexts := Function.update s.fdContexts fd (some s.contexts)
          contexts := s.contexts + 1 } : State T D).move t
            (.registering fd s.contexts event true))
  | register (t : T) (fd : D) (fd_ctx : Nat) (event : Event) (isNew : Bool)
      (registering : s.stage t = .registering fd fd_ctx event isNew)
      (unused : s.events fd_ctx event = none) :
      Taken s (.register t)
        (s.register t ((s.handle fd).getD s.sockets) fd fd_ctx event isNew)
  | triggered (action : Action T D) (fd_ctx : Nat) (event : Event) :
      Taken s action (s.trigger fd_ctx event)
  | cancels (t : T) (fd : D) (ctx : Nat) (idle : s.stage t = .idle)
      (found : s.datas fd = some ctx) :
      Taken s (.closesocket t fd) (s.move t (.cancelling fd))
  | closes (t : T) (fd : D) (idle : s.stage t = .idle)
      (missed : s.datas fd = none) :
      Taken s (.closesocket t fd) (s.move t (.closing fd))
  | cancelAll (t : T) (fd : D) (cancelling : s.stage t = .cancelling fd) :
      Taken s (.cancelAll t) ((s.cancelAll fd).move t (.deleting fd))
  | del (t : T) (fd : D) (deleting : s.stage t = .deleting fd) :
      Taken s (.del t)
        (({ s with datas := Function.update s.datas fd none } : State T D).move t
          (.closing fd))
  | release (t : T) (fd : D) (closing : s.stage t = .closing fd) :
      Taken s (.release t)
        (({ s with handle := Function.update s.handle fd none } : State T D).move t
          .idle)

theorem step_taken (hook : ∀ t, s.hook t = true)
    (taken : step s action = some next) : Taken s action next := by
  cases action with
  | socket t fd =>
      simp only [step, hook] at taken
      split at taken
      · cases taken
        apply Taken.socket <;> assumption
      · cases taken
  | get t =>
      simp only [step] at taken
      split at taken
      · rename_i fd opened
        cases taken
        cases found : s.datas fd with
        | none => exact .missed t fd opened found
        | some ctx => exact .found t fd opened (by rw [found]; rfl)
      · cases taken
  | create t isSocket =>
      simp only [step] at taken
      split at taken
      · cases taken
        exact .create t _ isSocket ‹_›
      · cases taken
  | setTimeout t fd type v =>
      simp only [step] at taken
      split at taken
      · cases taken
        apply Taken.setTimeout <;> assumption
      · cases taken
        exact .ignored _
      · cases taken
  | store t =>
      simp only [step] at taken
      split at taken
      · cases taken
        exact .store t _ _ _ _ ‹_›
      · cases taken
  | addEvent t fd event =>
      simp only [step] at taken
      split at taken
      · rename_i idle
        cases taken
        cases known : s.fdContexts fd with
        | none => exact .new t fd event idle known
        | some fd_ctx => exact .known t fd event fd_ctx idle known
      · cases taken
  | insert t =>
      simp only [step] at taken
      split at taken
      · cases taken
        exact .insert t _ _ ‹_›
      · cases taken
  | register t =>
      simp only [step] at taken
      split at taken
      · split at taken
        · cases taken
          apply Taken.register <;> assumption
        · cases taken
      · cases taken
  | complete t =>
      simp only [step] at taken
      split at taken
      · split at taken
        · cases taken
          exact .triggered ..
        · cases taken
      · cases taken
  | expire t =>
      simp only [step] at taken
      split at taken
      · split at taken
        · cases taken
          exact .triggered ..
        · cases taken
          exact .ignored _
      · cases taken
  | closesocket t fd =>
      simp only [step, closesocket, hook] at taken
      split at taken
      · rename_i idle
        cases taken
        cases found : s.datas fd with
        | none => exact .closes t fd idle found
        | some ctx => exact .cancels t fd ctx idle found
      · cases taken
  | cancelAll t =>
      simp only [step] at taken
      split at taken
      · cases taken
        exact .cancelAll t _ ‹_›
      · cases taken
  | del t =>
      simp only [step] at taken
      split at taken
      · cases taken
        exact .del t _ ‹_›
      · cases taken
  | release t =>
      simp only [step] at taken
      split at taken
      · cases taken
        exact .release t _ ‹_›
      · cases taken

section Stages

variable {t : T} {stage : Stage D}

omit [DecidableEq D] in
theorem move_stage (stage : Stage D) (u : T) :
    (s.move t stage).stage u = if u = t then stage else s.stage u :=
  Function.update_apply ..

omit [DecidableEq T] [DecidableEq D] in
theorem associate_stage (fd : D) (fd_ctx : Nat) :
    (s.associate fd fd_ctx).stage = s.stage := by
  unfold associate
  split
  · rfl
  · split <;> rfl

omit [DecidableEq D] in
theorem trigger_stage (fd_ctx : Nat) (event : Event) (u : T) :
    (s.trigger fd_ctx event).stage u =
      if s.events fd_ctx event = some u then .idle else s.stage u := by
  unfold trigger
  split
  · rename_i unset
    rw [unset, if_neg (by rintro ⟨⟩)]
  · rename_i t here
    simp only [here, Option.some.injEq, Function.update_apply, eq_comm]

omit [DecidableEq D] in
theorem trigger_fdContexts (fd_ctx : Nat) (event : Event) :
    (s.trigger fd_ctx event).fdContexts = s.fdContexts := by
  unfold trigger
  split <;> rfl

omit [DecidableEq D] in
theorem trigger_events (fd_ctx : Nat) (event : Event) :
    (s.trigger fd_ctx event).events fd_ctx =
      Function.update (s.events fd_ctx) event none := by
  unfold trigger
  split
  · rename_i unset
    rw [← unset, Function.update_eq_self]
  · exact Function.update_self ..

/-- An event is set for a fiber exactly while it waits for it. -/
def Registered (s : State T D) : Prop :=
  ∀ fd_ctx event t, s.events fd_ctx event = some t ↔
    (s.stage t).waits = some (fd_ctx, event)

namespace Registered

omit [DecidableEq T] [DecidableEq D] in
theorem others {handle : D → Option Nat} {datas : D → Option Nat}
    {fdContexts : D → Option Nat} {contexts : Nat} (registered : s.Registered) :
    ({ s with
      handle := handle, datas := datas, fdContexts := fdContexts
      contexts := contexts } : State T D).Registered :=
  registered

omit [DecidableEq D] in
theorem move (registered : s.Registered) (before : (s.stage t).waits = none)
    (after : stage.waits = none) : (s.move t stage).Registered := by
  intro fd_ctx event u
  rw [move_stage]
  refine (registered fd_ctx event u).trans ?_
  split
  · rename_i same
    rw [same, before, after]
  · exact Iff.rfl

omit [DecidableEq D] in
theorem trigger (registered : s.Registered) (fd_ctx : Nat) (event : Event) :
    (s.trigger fd_ctx event).Registered := by
  unfold State.trigger
  split
  · exact registered
  · rename_i t here
    intro other also u
    have waits := registered fd_ctx event t
    have set := registered other also u
    simp only [Function.update_apply]
    grind [Stage.waits]

omit [DecidableEq D] in
theorem register (registered : s.Registered) {k fd_ctx : Nat} {fd : D}
    {event : Event} (isNew : Bool) (before : (s.stage t).waits = none)
    (unused : s.events fd_ctx event = none) :
    (s.register t k fd fd_ctx event isNew).Registered := by
  intro other also u
  have set := registered other also u
  simp only [State.register, Function.update_apply]
  grind [Stage.waits]

omit [DecidableEq D] in
/-- Only a fiber that waits is resumed. -/
theorem trigger_calm (registered : s.Registered) (calm : (s.stage t).waits = none)
    (fd_ctx : Nat) (event : Event) : (s.trigger fd_ctx event).stage t = s.stage t := by
  rw [trigger_stage, if_neg]
  intro set
  rw [(registered fd_ctx event t).mp set] at calm
  cases calm

omit [DecidableEq D] in
theorem cancelAll (registered : s.Registered) (fd : D) :
    (s.cancelAll fd).Registered := by
  unfold State.cancelAll
  split
  · exact registered
  · exact (registered.trigger _ _).trigger _ _

omit [DecidableEq D] in
theorem cancelAll_calm (registered : s.Registered)
    (calm : (s.stage t).waits = none) (fd : D) :
    (s.cancelAll fd).stage t = s.stage t := by
  unfold State.cancelAll
  split
  · rfl
  · rename_i fd_ctx mapped
    have first := registered.trigger_calm calm fd_ctx .READ
    rw [← first] at calm
    exact ((registered.trigger _ _).trigger_calm calm fd_ctx .WRITE).trans first

omit [DecidableEq D] in
/-- After `cancelAll` nobody waits in the context that `m_fdContexts` has. -/
theorem cancelled (registered : s.Registered) {fd : D} {fd_ctx k : Nat}
    {event : Event} (mapped : s.fdContexts fd = some fd_ctx) :
    (s.cancelAll fd).stage t ≠ .waiting k fd fd_ctx event := by
  intro waiting
  have set := (registered.cancelAll fd fd_ctx event t).mpr
    (congrArg Stage.waits waiting)
  unfold State.cancelAll at set
  simp only [mapped, trigger_events] at set
  cases event <;> simp at set

end Registered

theorem Registered.step (registered : s.Registered) (taken : Taken s action next) :
    next.Registered := by
  cases taken with
  | socket t fd idle free =>
      exact Registered.move (show (s.opens fd).Registered from registered)
        (congrArg Stage.waits idle) rfl
  | found t fd opened found =>
      exact registered.move (congrArg Stage.waits opened) rfl
  | missed t fd opened missed =>
      exact registered.move (congrArg Stage.waits opened) rfl
  | create t fd isSocket missed =>
      exact Registered.move (show (s.create fd isSocket).Registered from registered)
        (congrArg Stage.waits missed) rfl
  | setTimeout t fd type v ctx idle found =>
      exact registered.move (congrArg Stage.waits idle) rfl
  | ignored action => exact registered
  | store t ctx k type v setting =>
      exact Registered.move (show (s.store ctx k type v).Registered from registered)
        (congrArg Stage.waits setting) rfl
  | known t fd event fd_ctx idle known =>
      exact registered.move (congrArg Stage.waits idle) rfl
  | new t fd event idle new => exact registered.move (congrArg Stage.waits idle) rfl
  | insert t fd event inserting =>
      exact registered.others.move (congrArg Stage.waits inserting) rfl
  | register t fd fd_ctx event isNew registering unused =>
      exact registered.register isNew (congrArg Stage.waits registering) unused
  | triggered action fd_ctx event => exact registered.trigger fd_ctx event
  | cancels t fd ctx idle found => exact registered.move (congrArg Stage.waits idle) rfl
  | closes t fd idle missed => exact registered.move (congrArg Stage.waits idle) rfl
  | cancelAll t fd cancelling =>
      have calm : (s.stage t).waits = none := congrArg Stage.waits cancelling
      apply (registered.cancelAll fd).move _ rfl
      rw [registered.cancelAll_calm calm, calm]
  | del t fd deleting => exact registered.others.move (congrArg Stage.waits deleting) rfl
  | release t fd closing =>
      exact registered.others.move (congrArg Stage.waits closing) rfl

omit [DecidableEq T] [DecidableEq D] in
theorem Initial.registered (initial : s.Initial) : s.Registered := by
  intro fd_ctx event t
  rw [initial.events, initial.stage]
  exact ⟨by rintro ⟨⟩, by rintro ⟨⟩⟩

end Stages

end State

end Sylar.Handles
