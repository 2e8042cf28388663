import Sylar.Hook.Timeouts

namespace Sylar.Handles

open Logic Socket.Counts IOManager

/-! `m_fdContexts` keeps the context of a closed handle, and only a call of
`addEvent` that finds none associates the socket: of the sockets that get a handle
one after another, the first is heard from. Two calls may both find none; then the
context of one of them is overwritten, and that of one of them is not the key. -/

/-- The handle on which nobody waits in the context that `m_fdContexts` has. -/
def Stage.clears {D : Type} : Stage D → Option D
  | .opened fd => some fd
  | .missed fd => some fd
  | .deleting fd => some fd
  | .closing fd => some fd
  | _ => none

namespace State

variable {T D : Type} [DecidableEq T] [DecidableEq D] {s next : State T D}
  {action : Action T D} {t : T} {fd : D} {stage other : Stage D}

/-- Of the sockets that had the handle no other one is associated. -/
def OnlyHeard (s : State T D) (fd : D) (k : Nat) : Prop :=
  ∀ j, s.given j = some fd → (s.port j).isSome = true → j = k

/-- No socket that had the handle before is associated. -/
def Unheard (s : State T D) (fd : D) : Prop :=
  ∀ k, s.handle fd = some k → s.OnlyHeard fd k

/-- Whoever waits on the handle waits on the socket that is open. -/
def Present (s : State T D) (fd : D) : Prop :=
  ∀ t k fd_ctx event, s.stage t = .waiting k fd fd_ctx event → s.handle fd = some k

/-- What a fiber relies on in `addEvent` and behind it. -/
def Sees (s : State T D) : Stage D → Prop
  | .inserting fd _ => s.Live fd ∧ s.Unheard fd ∧ s.Present fd
  | .registering fd fd_ctx _ isNew =>
      s.Live fd ∧ (s.fdContexts fd).isSome = true ∧ fd_ctx < s.contexts ∧
        (s.fdContexts fd = some fd_ctx ∨ s.Unheard fd) ∧
        (isNew = true → s.Unheard fd ∧ s.Present fd)
  | .waiting k fd fd_ctx _ =>
      s.given k = some fd ∧ (s.fdContexts fd).isSome = true ∧ fd_ctx < s.contexts ∧
        (s.fdContexts fd = some fd_ctx →
          s.handle fd = some k ∧ ∀ u, (s.stage u).clears ≠ some fd) ∧
        (s.fdContexts fd = some fd_ctx ∨ s.OnlyHeard fd k)
  | _ => True

structure Ports (s : State T D) : Prop where
  fresh : ∀ k, s.sockets ≤ k → s.port k = none
  known : ∀ k fd, (s.port k).isSome = true → s.given k = some fd →
    (s.fdContexts fd).isSome = true
  made : ∀ fd fd_ctx, s.fdContexts fd = some fd_ctx → fd_ctx < s.contexts
  once : ∀ j k fd, (s.port j).isSome = true → (s.port k).isSome = true →
    s.given j = some fd → s.given k = some fd → j = k
  sees : ∀ t, s.Sees (s.stage t)
  first : ∀ fd, (s.fdContexts fd).isSome = true →
    (∃ k, s.given k = some fd ∧ (s.port k).isSome = true) ∨
      ∃ t fd_ctx event, s.stage t = .registering fd fd_ctx event true

omit [DecidableEq T] [DecidableEq D] in
theorem Live.clear (live : s.Live fd) (u : T) : (s.stage u).clears ≠ some fd := by
  intro clears
  cases stage : s.stage u <;> rw [stage] at clears <;> cases clears <;>
    exact live.2 u (by rw [stage]; rfl)

omit [DecidableEq T] [DecidableEq D] in
theorem Sees.live (sees : s.Sees stage) (adds : stage.adds = some fd) :
    s.Live fd := by
  cases stage with
  | inserting other event =>
      cases adds
      exact sees.1
  | registering other fd_ctx event isNew =>
      cases adds
      exact sees.1
  | _ => cases adds

/-- The socket and the handle of a fiber in `addEvent` or behind it. -/
def On (s : State T D) (stage : Stage D) (fd : D) (k : Nat) : Prop :=
  stage.adds = some fd ∧ s.handle fd = some k ∨
    ∃ fd_ctx event, stage = .waiting k fd fd_ctx event

/-- Whether the handle is still needed: by a call of `addEvent`, or by a fiber that
waits in the context that `m_fdContexts` has. -/
def Needs (s : State T D) (stage : Stage D) (fd : D) : Prop :=
  stage.adds = some fd ∨
    ∃ k fd_ctx event, stage = .waiting k fd fd_ctx event ∧
      s.fdContexts fd = some fd_ctx

omit [DecidableEq T] [DecidableEq D] in
theorem Sees.held (sees : s.Sees stage) (needs : s.Needs stage fd) :
    (s.handle fd).isSome = true := by
  rcases needs with adds | ⟨k, fd_ctx, event, rfl, mapped⟩
  · exact (sees.live adds).1
  · rw [(sees.2.2.2.1 mapped).1]
    rfl

omit [DecidableEq T] [DecidableEq D] in
/-- The steps of others that store no context leave what a fiber relies on. -/
theorem Sees.frame (sees : s.Sees stage)
    (given : ∀ k fd, s.given k = some fd → next.given k = some fd)
    (handle : ∀ fd, s.Needs stage fd → next.handle fd = s.handle fd)
    (only : ∀ fd k, s.On stage fd k → s.OnlyHeard fd k → next.OnlyHeard fd k)
    (fdContexts : next.fdContexts = s.fdContexts)
    (contexts : s.contexts ≤ next.contexts)
    (turns : ∀ fd, stage.adds = some fd → (∀ u, (s.stage u).turns ≠ some fd) →
      ∀ u, (next.stage u).turns ≠ some fd)
    (clears : ∀ k fd fd_ctx event, stage = .waiting k fd fd_ctx event →
      s.fdContexts fd = some fd_ctx → (∀ u, (s.stage u).clears ≠ some fd) →
      ∀ u, (next.stage u).clears ≠ some fd)
    (present : ∀ fd, stage.adds = some fd → s.Present fd → next.Present fd) :
    next.Sees stage := by
  have live (fd : D) (adds : stage.adds = some fd) (live : s.Live fd) :
      next.Live fd :=
    ⟨handle fd (.inl adds) ▸ live.1, turns fd adds live.2⟩
  have unheard (fd : D) (adds : stage.adds = some fd) (unheard : s.Unheard fd) :
      next.Unheard fd := by
    intro k here
    rw [handle fd (.inl adds)] at here
    exact only fd k (.inl ⟨adds, here⟩) (unheard k here)
  cases stage with
  | inserting fd event =>
      obtain ⟨free, first, here⟩ := sees
      exact ⟨live fd rfl free, unheard fd rfl first, present fd rfl here⟩
  | registering fd fd_ctx event isNew =>
      obtain ⟨free, known, made, mine, new⟩ := sees
      rw [← fdContexts] at known mine
      exact ⟨live fd rfl free, known, made.trans_le contexts,
        mine.imp_right (unheard fd rfl), fun isNew =>
          ⟨unheard fd rfl (new isNew).1, present fd rfl (new isNew).2⟩⟩
  | waiting k fd fd_ctx event =>
      obtain ⟨number, known, made, mapped, mine⟩ := sees
      rw [Sees, fdContexts]
      refine ⟨given k fd number, known, made.trans_le contexts, fun same => ?_,
        mine.imp_right (only fd k (.inr ⟨fd_ctx, event, rfl⟩))⟩
      obtain ⟨here, clear⟩ := mapped same
      exact ⟨(handle fd (.inr ⟨k, fd_ctx, event, rfl, same⟩)).trans here,
        clears k fd fd_ctx event rfl same clear⟩
  | _ => trivial

omit [DecidableEq D] in
/-- Another fiber goes on to a stage of its own. -/
theorem Sees.move (sees : s.Sees other) (waits : stage.waits = none)
    (turns : ∀ fd, other.adds = some fd → stage.turns ≠ some fd)
    (clears : ∀ k fd fd_ctx event, other = .waiting k fd fd_ctx event →
      s.fdContexts fd = some fd_ctx → stage.clears ≠ some fd) :
    (s.move t stage).Sees other := by
  apply sees.frame
  · exact fun _ _ => id
  · exact fun _ _ => rfl
  · exact fun _ _ _ => id
  · rfl
  · exact Nat.le_refl _
  · intro fd adds free u
    rw [move_stage]
    split
    · exact turns fd adds
    · exact free u
  · intro k fd fd_ctx event waiting mapped clear u
    rw [move_stage]
    split
    · exact clears k fd fd_ctx event waiting mapped
    · exact clear u
  · intro fd adds here u k fd_ctx event waiting
    rw [move_stage] at waiting
    split at waiting
    · rw [waiting] at waits
      cases waits
    · exact here u k fd_ctx event waiting

omit [DecidableEq D] in
theorem Sees.calm (sees : s.Sees other) (waits : stage.waits = none)
    (turns : stage.turns = none) (clears : stage.clears = none) :
    (s.move t stage).Sees other := by
  apply sees.move waits
  · intro fd adds turning
    rw [turns] at turning
    cases turning
  · intro k fd fd_ctx event waiting mapped clearing
    rw [clears] at clearing
    cases clearing

namespace Ports

omit [DecidableEq T] [DecidableEq D] in
theorem others {hook : T → Bool} {datas : D → Option Nat} {ctx : Nat → FdCtx}
    {made : Nat} {last : Nat → SockOpt → Int64} (ports : s.Ports) :
    ({ s with
      hook := hook, datas := datas, ctx := ctx, made := made
      last := last } : State T D).Ports where
  fresh := ports.fresh
  known := ports.known
  made := ports.made
  once := ports.once
  sees t := (ports.sees t).frame (fun _ _ => id) (fun _ _ => rfl) (fun _ _ _ => id) rfl
    (Nat.le_refl _) (fun _ _ => id) (fun _ _ _ _ _ _ => id) (fun _ _ => id)
  first := ports.first

omit [DecidableEq D] in
/-- A step of one fiber, which has not yet to associate a socket, closes no handle
to which a call adds, and takes none away from a fiber that waits. -/
theorem move (ports : s.Ports) (sees : s.Sees stage) (waits : stage.waits = none)
    (turns : ∀ fd, stage.turns = some fd → (s.stage t).turns = some fd ∨
      stage.adds = none ∧ ∀ u, (s.stage u).adds ≠ some fd)
    (clears : ∀ fd, stage.clears = some fd → (s.stage t).clears = some fd)
    (past : ∀ fd fd_ctx event, s.stage t ≠ .registering fd fd_ctx event true) :
    (s.move t stage).Ports where
  fresh := ports.fresh
  known := ports.known
  made := ports.made
  once := ports.once
  sees u := by
    have frame {other : Stage D} (sees : s.Sees other)
        (whose : other = stage ∨ other = s.stage u) : (s.move t stage).Sees other := by
      apply sees.move waits
      · intro fd adds turning
        have free := (sees.live adds).2 t
        grind
      · intro k fd fd_ctx event waiting mapped clearing
        subst waiting
        exact (sees.2.2.2.1 mapped).2 t (clears fd clearing)
    rw [move_stage]
    split
    · exact frame sees (.inl rfl)
    · exact frame (ports.sees u) (.inr rfl)
  first fd known := by
    rcases ports.first fd known with heard | ⟨u, fd_ctx, event, registering⟩
    · exact .inl heard
    · refine .inr ⟨u, fd_ctx, event, ?_⟩
      rw [move_stage, if_neg]
      · exact registering
      · rintro rfl
        exact past fd fd_ctx event registering

omit [DecidableEq T] [DecidableEq D] in
/-- A call that is to associate its socket does so, or goes on. -/
theorem first_of (ports : s.Ports)
    (given : ∀ k fd, s.given k = some fd → next.given k = some fd)
    (heard : ∀ k, (s.port k).isSome = true → (next.port k).isSome = true)
    (stays : ∀ u fd fd_ctx event, s.stage u = .registering fd fd_ctx event true →
      next.stage u = .registering fd fd_ctx event true ∨
        ∃ k, next.given k = some fd ∧ (next.port k).isSome = true) (fd : D)
    (known : (s.fdContexts fd).isSome = true) :
    (∃ k, next.given k = some fd ∧ (next.port k).isSome = true) ∨
      ∃ t fd_ctx event, next.stage t = .registering fd fd_ctx event true := by
  rcases ports.first fd known with ⟨k, number, also⟩ | ⟨u, fd_ctx, event, registering⟩
  · exact .inl ⟨k, given k fd number, heard k also⟩
  · rcases stays u fd fd_ctx event registering with still | associated
    · exact .inr ⟨u, fd_ctx, event, still⟩
    · exact .inl associated

theorem socket (ports : s.Ports) (opened : s.Opened) (idle : s.stage t = .idle)
    (free : s.handle fd = none) :
    ((s.opens fd).move t (.opened fd)).Ports := by
  have unborn : s.port s.sockets = none := ports.fresh _ (Nat.le_refl _)
  have grows (k : Nat) (other : D) (given : s.given k = some other) :
      (s.opens fd).given k = some other := by
    have born := opened.born k other given
    exact (Function.update_of_ne (Nat.ne_of_lt born) ..).trans given
  have apart {other : D} (held : (s.handle other).isSome = true) : other ≠ fd := by
    rintro rfl
    rw [free] at held
    cases held
  constructor
  · exact fun k after => ports.fresh k (Nat.le_of_succ_le after)
  · intro k other
    simp only [State.move, State.opens, Function.update_apply]
    grind [ports.known]
  · exact ports.made
  · intro j k other
    simp only [State.move, State.opens, Function.update_apply]
    grind [ports.once]
  · intro u
    rw [move_stage]
    split
    · trivial
    · have sees := ports.sees u
      have needs {other : D} (needs : s.Needs (s.stage u) other) : other ≠ fd :=
        apart (sees.held needs)
      apply Sees.move (s := s.opens fd)
      · apply sees.frame
        · exact grows
        · exact fun other needed => Function.update_of_ne (needs needed) ..
        · intro other k here only j
          simp only [State.opens, Function.update_apply]
          grind [only j]
        · rfl
        · exact Nat.le_refl _
        · exact fun _ _ => id
        · exact fun _ _ _ _ _ _ => id
        · intro other adds here w k fd_ctx event waiting
          exact (Function.update_of_ne (needs (.inl adds)) ..).trans
            (here w k fd_ctx event waiting)
      · rfl
      · intro other adds opening
        cases opening
        exact needs (.inl adds) rfl
      · intro k other fd_ctx event waiting mapped opening
        cases opening
        exact needs (.inr ⟨k, fd_ctx, event, waiting, mapped⟩) rfl
  · refine ports.first_of ?_ (fun _ => id) ?_
    · exact grows
    · intro u other fd_ctx event registering
      left
      rw [move_stage, if_neg]
      · exact registering
      · rintro rfl
        rw [idle] at registering
        cases registering

/-- The context that is stored now overwrites what another call may have stored
since this one looked. -/
theorem insert (ports : s.Ports) {event : Event}
    (inserting : s.stage t = .inserting fd event) :
    (({ s with
      fdContexts := Function.update s.fdContexts fd (some s.contexts)
      contexts := s.contexts + 1 } : State T D).move t
        (.registering fd s.contexts event true)).Ports := by
  have before := ports.sees t
  rw [inserting] at before
  obtain ⟨live, unheard, present⟩ := before
  have grows (other : D) (known : (s.fdContexts other).isSome = true) :
      (Function.update s.fdContexts fd (some s.contexts) other).isSome = true := by
    rw [Function.update_apply]
    split
    · rfl
    · exact known
  have stored : (Function.update s.fdContexts fd (some s.contexts) fd).isSome = true := by
    rw [Function.update_self]
    rfl
  constructor
  · exact ports.fresh
  · exact fun k other heard given => grows other (ports.known k other heard given)
  · intro other fd_ctx stored
    by_cases same : other = fd
    · subst same
      cases (Function.update_self ..).symm.trans stored
      exact Nat.lt_succ_self _
    · exact Nat.lt_succ_of_lt
        (ports.made other fd_ctx ((Function.update_of_ne same ..).symm.trans stored))
  · exact ports.once
  · intro u
    rw [move_stage]
    split
    · apply Sees.calm _ rfl rfl rfl
      exact ⟨live, stored, Nat.lt_succ_self _, .inl (Function.update_self ..),
        fun _ => ⟨unheard, present⟩⟩
    · apply Sees.calm _ rfl rfl rfl
      have sees := ports.sees u
      cases stage : s.stage u with
      | inserting other also =>
          rw [stage] at sees
          exact sees
      | registering other fd_ctx also isNew =>
          rw [stage] at sees
          obtain ⟨free, known, made, mine, new⟩ := sees
          refine ⟨free, grows other known, Nat.lt_succ_of_lt made, ?_, new⟩
          by_cases same : other = fd
          · subst same
            exact .inr unheard
          · refine mine.imp_left fun mapped => ?_
            exact (Function.update_of_ne same ..).trans mapped
      | waiting k other fd_ctx also =>
          rw [stage] at sees
          obtain ⟨number, known, made, mapped, mine⟩ := sees
          refine ⟨number, grows other known, Nat.lt_succ_of_lt made, ?_, ?_⟩
          · intro stored
            by_cases same : other = fd
            · subst same
              cases (Function.update_self ..).symm.trans stored
              exact absurd made (Nat.lt_irrefl _)
            · exact mapped ((Function.update_of_ne same ..).symm.trans stored)
          · by_cases same : other = fd
            · subst same
              exact .inr (unheard k (present u k fd_ctx also stage))
            · refine mine.imp_left fun mapped => ?_
              exact (Function.update_of_ne same ..).trans mapped
      | _ => trivial
  · intro other known
    by_cases same : other = fd
    · subst same
      refine .inr ⟨t, s.contexts, event, ?_⟩
      rw [move_stage, if_pos rfl]
    · refine ports.first_of ?_ ?_ ?_ other ?_
      · exact fun _ _ => id
      · exact fun _ => id
      · intro u another fd_ctx also registering
        left
        rw [move_stage, if_neg]
        · exact registering
        · rintro rfl
          rw [inserting] at registering
          cases registering
      · exact (congrArg Option.isSome (Function.update_of_ne same ..).symm).trans known

omit [DecidableEq D] in
/-- The last section of `addEvent` on the socket that is open. -/
theorem register (ports : s.Ports) (opened : s.Opened) {fd_ctx : Nat}
    {event : Event} {isNew : Bool}
    (registering : s.stage t = .registering fd fd_ctx event isNew) :
    (s.register t ((s.handle fd).getD s.sockets) fd fd_ctx event isNew).Ports := by
  have before := ports.sees t
  rw [registering] at before
  obtain ⟨live, known, made, mine, new⟩ := before
  obtain ⟨k, here⟩ := Option.isSome_iff_exists.mp live.1
  have number := opened.given fd k here
  have born := opened.born k fd number
  have only : s.fdContexts fd = some fd_ctx ∨ s.OnlyHeard fd k :=
    mine.imp_right fun unheard => unheard k here
  -- only `k` may become associated, and then no other socket is
  obtain ⟨port, same, others, associated, grows⟩ : ∃ port : Nat → Option Nat,
      (if isNew then s.associate fd fd_ctx else s) = { s with port := port } ∧
      (∀ j, j ≠ k → port j = s.port j) ∧
      (isNew = true ∧ (port k).isSome = true ∨ isNew = false ∧ port = s.port) ∧
      ∀ j, (s.port j).isSome = true → (port j).isSome = true := by
    cases isNew with
    | false => exact ⟨s.port, rfl, fun _ _ => rfl, .inr ⟨rfl, rfl⟩, fun _ => id⟩
    | true =>
        cases key : s.port k with
        | some first =>
            refine ⟨s.port, ?_, fun _ _ => rfl, .inl ⟨rfl, by rw [key]; rfl⟩, fun _ => id⟩
            simp only [if_true, State.associate, here, key]
        | none =>
            refine ⟨Function.update s.port k (some fd_ctx), ?_, ?_, ?_, ?_⟩
            · simp only [if_true, State.associate, here, key]
            · exact fun j apart => Function.update_of_ne apart ..
            · exact .inl ⟨rfl, by rw [Function.update_self]; rfl⟩
            · intro j heard
              rw [Function.update_apply]
              split
              · rfl
              · exact heard
  have narrow (other : D) (j : Nat) (on : other = fd → j = k)
      (before : s.OnlyHeard other j) :
      ∀ i, s.given i = some other → (port i).isSome = true → i = j := by
    intro i given heard
    by_cases new : i = k
    · subst new
      cases given.symm.trans number
      exact (on rfl).symm
    · exact before i given (others i new ▸ heard)
  have alone (j : Nat) (given : s.given j = some fd) (heard : (port j).isSome = true)
      (also : (port k).isSome = true) : j = k := by
    rcases associated with ⟨isNew, -⟩ | ⟨-, still⟩
    · exact narrow fd k (fun _ => rfl) ((new isNew).1 k here) j given heard
    · rw [still] at heard also
      exact ports.once j k fd heard also given number
  unfold State.register
  rw [same, here, Option.getD_some]
  constructor
  · intro j after
    have apart : j ≠ k := Nat.ne_of_gt (born.trans_le after)
    exact (others j apart).trans (ports.fresh j after)
  · intro j other heard given
    by_cases new : j = k
    · subst new
      cases given.symm.trans number
      exact known
    · exact ports.known j other (others j new ▸ heard) given
  · exact ports.made
  · intro i j other heard also first second
    by_cases one : i = k
    · subst one
      cases first.symm.trans number
      exact (alone j second also heard).symm
    · by_cases two : j = k
      · subst two
        cases second.symm.trans number
        exact alone i first heard also
      · exact ports.once i j other (others i one ▸ heard) (others j two ▸ also) first
          second
  · intro u
    change State.Sees _ (Function.update s.stage t (.waiting k fd fd_ctx event) u)
    rw [Function.update_apply]
    split
    · refine ⟨number, known, made, fun _ => ⟨here, fun w => ?_⟩,
        only.imp_right (narrow fd k fun _ => rfl)⟩
      change (Function.update s.stage t (.waiting k fd fd_ctx event) w).clears ≠ _
      rw [Function.update_apply]
      split
      · exact (Option.some_ne_none fd).symm
      · exact live.clear w
    · have sees := ports.sees u
      refine sees.frame (fun _ _ => id) (fun _ _ => rfl) ?_ rfl (Nat.le_refl _) ?_ ?_ ?_
      · intro other j on before
        rcases associated with ⟨isNew, -⟩ | ⟨-, rfl⟩
        · refine narrow other j ?_ before
          rintro rfl
          rcases on with ⟨-, there⟩ | ⟨another, also, waiting⟩
          · exact Option.some.inj (there.symm.trans here)
          · exact Option.some.inj
              (((new isNew).2 u j another also waiting).symm.trans here)
        · exact before
      · intro other adds free w
        change (Function.update s.stage t (.waiting k fd fd_ctx event) w).turns ≠ _
        rw [Function.update_apply]
        split
        · exact (Option.some_ne_none other).symm
        · exact free w
      · intro j other another also waiting mapped clear w
        change (Function.update s.stage t (.waiting k fd fd_ctx event) w).clears ≠ _
        rw [Function.update_apply]
        split
        · exact (Option.some_ne_none other).symm
        · exact clear w
      · intro other adds before w j another also waiting
        change Function.update s.stage t (.waiting k fd fd_ctx event) w = _ at waiting
        rw [Function.update_apply] at waiting
        split at waiting
        · cases waiting
          exact here
        · exact before w j another also waiting
  · refine ports.first_of ?_ grows ?_
    · exact fun _ _ => id
    · intro u other another also here
      by_cases mine : u = t
      · subst mine
        rw [registering] at here
        cases here
        obtain ⟨-, heard⟩ | ⟨⟨⟩, -⟩ := associated
        exact .inr ⟨k, number, heard⟩
      · exact .inl ((Function.update_of_ne mine ..).trans here)

omit [DecidableEq D] in
theorem trigger (ports : s.Ports) (registered : s.Registered) (fd_ctx : Nat)
    (event : Event) : (s.trigger fd_ctx event).Ports := by
  unfold State.trigger
  split
  · exact ports
  · rename_i t set
    have waits := (registered fd_ctx event t).mp set
    have moved : (s.move t .idle).Ports := by
      refine ports.move trivial rfl ?_ ?_ ?_
      · rintro fd ⟨⟩
      · rintro fd ⟨⟩
      · intro fd other also registering
        rw [registering] at waits
        cases waits
    exact ⟨moved.fresh, moved.known, moved.made, moved.once, moved.sees, moved.first⟩

omit [DecidableEq D] in
theorem cancelAll (ports : s.Ports) (registered : s.Registered)
    (cancelling : s.stage t = .cancelling fd) :
    ((s.cancelAll fd).move t (.deleting fd)).Ports := by
  have turning : (s.stage t).turns = some fd := congrArg Stage.turns cancelling
  have calm : (s.cancelAll fd).stage t = s.stage t :=
    registered.cancelAll_calm (congrArg Stage.waits cancelling) fd
  have after : (s.cancelAll fd).Ports := by
    unfold State.cancelAll
    split
    · exact ports
    · exact (ports.trigger registered _ _).trigger (registered.trigger _ _) _ _
  have same : (s.cancelAll fd).fdContexts = s.fdContexts := by
    unfold State.cancelAll
    split
    · rfl
    · rw [trigger_fdContexts, trigger_fdContexts]
  constructor
  · exact after.fresh
  · exact after.known
  · exact after.made
  · exact after.once
  · intro u
    rw [move_stage]
    split
    · trivial
    · have sees := after.sees u
      apply sees.move rfl
      · intro other adds deleting
        cases deleting
        exact (sees.live adds).2 t (by rw [calm]; exact turning)
      · intro k other fd_ctx event waiting mapped deleting
        cases deleting
        rw [same] at mapped
        exact registered.cancelled mapped waiting
  · refine after.first_of ?_ (fun _ => id) ?_
    · exact fun _ _ => id
    · intro u other fd_ctx event registering
      left
      rw [move_stage, if_neg]
      · exact registering
      · rintro rfl
        rw [calm, cancelling] at registering
        cases registering

theorem release (ports : s.Ports) (closing : s.stage t = .closing fd) :
    (({ s with handle := Function.update s.handle fd none } : State T D).move t
      .idle).Ports := by
  have turning : (s.stage t).turns = some fd := congrArg Stage.turns closing
  have clearing : (s.stage t).clears = some fd := congrArg Stage.clears closing
  constructor
  · exact ports.fresh
  · exact ports.known
  · exact ports.made
  · exact ports.once
  · intro u
    rw [move_stage]
    split
    · trivial
    · have sees := ports.sees u
      have apart {other : D} (needs : s.Needs (s.stage u) other) : other ≠ fd := by
        rintro rfl
        rcases needs with adds | ⟨k, fd_ctx, event, waiting, mapped⟩
        · exact (sees.live adds).2 t turning
        · rw [waiting] at sees
          exact (sees.2.2.2.1 mapped).2 t clearing
      apply Sees.calm _ rfl rfl rfl
      refine sees.frame (fun _ _ => id) ?_ ?_ rfl (Nat.le_refl _) (fun _ _ => id)
        (fun _ _ _ _ _ _ => id) ?_
      · exact fun other needs => Function.update_of_ne (apart needs) ..
      · exact fun _ _ _ => id
      · intro other adds here w k fd_ctx event waiting
        exact (Function.update_of_ne (apart (.inl adds)) ..).trans
          (here w k fd_ctx event waiting)
  · refine ports.first_of ?_ (fun _ => id) ?_
    · exact fun _ _ => id
    · intro u other fd_ctx event registering
      left
      rw [move_stage, if_neg]
      · exact registering
      · rintro rfl
        rw [closing] at registering
        cases registering

theorem step (ports : s.Ports) (opened : s.Opened) (registered : s.Registered)
    {owner : Nat → Nat} (entries : s.Entries owner) (proper : s.Proper action)
    (taken : Taken s action next) : next.Ports := by
  cases taken with
  | socket t fd idle free => exact ports.socket opened idle free
  | found t fd here found =>
      exact ports.move trivial rfl nofun nofun (by simp [here])
  | missed t fd here missed =>
      refine ports.move trivial rfl (fun other turns => .inl ?_) ?_ (by simp [here])
      · rw [here]
        exact turns
      · rw [here]
        exact fun other => id
  | create t fd isSocket missed =>
      exact ports.others.move trivial rfl nofun nofun (by simp [missed])
  | setTimeout t fd type v ctx idle found =>
      exact ports.move trivial rfl nofun nofun (by simp [idle])
  | ignored action => exact ports
  | store t ctx k type v setting =>
      exact ports.others.move trivial rfl nofun nofun (by simp [setting])
  | known t fd event fd_ctx idle known =>
      refine ports.move ⟨proper, ?_, ports.made fd fd_ctx known, .inl known, nofun⟩ rfl
        nofun nofun (by simp [idle])
      rw [known]
      rfl
  | new t fd event idle new =>
      refine ports.move ⟨proper, ?_, ?_⟩ rfl nofun nofun (by simp [idle])
      · intro k here j given heard
        have known := ports.known j fd heard given
        rw [new] at known
        cases known
      · intro u k fd_ctx also waiting
        have sees := ports.sees u
        rw [waiting] at sees
        have known := sees.2.1
        rw [new] at known
        cases known
  | insert t fd event inserting => exact ports.insert inserting
  | register t fd fd_ctx event isNew registering unused =>
      exact ports.register opened registering
  | triggered action fd_ctx event => exact ports.trigger registered fd_ctx event
  | cancels t fd ctx idle found =>
      refine ports.move trivial rfl ?_ nofun (by simp [idle])
      rintro other ⟨⟩
      exact .inr ⟨rfl, proper.2⟩
  | closes t fd idle missed =>
      obtain ⟨ctx, found⟩ := entries.datas_of_live proper.1
      rw [missed] at found
      cases found
  | cancelAll t fd cancelling => exact ports.cancelAll registered cancelling
  | del t fd deleting =>
      refine ports.others.move trivial rfl (fun other turns => .inl ?_) ?_
        (by simp [deleting])
      · rw [deleting]
        exact turns
      · rw [deleting]
        exact fun other => id
  | release t fd closing => exact ports.release closing

end Ports

omit [DecidableEq T] [DecidableEq D] in
theorem Initial.ports (initial : s.Initial) : s.Ports where
  fresh k _ := initial.port k
  known k fd heard := by
    rw [initial.port] at heard
    cases heard
  made fd fd_ctx mapped := by
    rw [initial.fdContexts] at mapped
    cases mapped
  once j k fd heard := by
    rw [initial.port] at heard
    cases heard
  sees t := by
    rw [initial.stage]
    trivial
  first fd known := by
    rw [initial.fdContexts] at known
    cases known

theorem Ports.run (reached : Reach Initial (StepWhen State.step Proper) s) :
    s.Ports := by
  induction reached with
  | start s initial => exact initial.ports
  | step s action next reached taken ih =>
      obtain ⟨opened, registered⟩ := Opened.run reached
      obtain ⟨owner, entries⟩ := Entries.run reached
      exact ih.step opened registered entries taken.1 (step_taken opened.hook taken.2)

section Witness

end Witness

end State

end Sylar.Handles
