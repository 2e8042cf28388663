import Sylar.Hook.Handles

namespace Sylar.Handles

open Logic Socket Socket.Counts IOManager

/-! Each socket has its own timeouts, whatever sockets had its handle before. -/

namespace Stage

variable {D : Type} {stage : Stage D} {fd : D}

/-- The handle whose new socket has no `FdCtx` yet. -/
def opens : Stage D → Option D
  | .opened fd => some fd
  | .missed fd => some fd
  | _ => none

/-- The handle that has no `FdCtx` although a socket is open under it. -/
def lacks : Stage D → Option D
  | .opened fd => some fd
  | .missed fd => some fd
  | .closing fd => some fd
  | _ => none

theorem turns_of_lacks (lacks : stage.lacks = some fd) :
    stage.turns = some fd := by
  cases stage <;> first | exact lacks | cases lacks

theorem lacks_of_opens (opens : stage.opens = some fd) :
    stage.lacks = some fd := by
  cases stage <;> first | exact opens | cases opens

end Stage

namespace State

variable {T D : Type} [DecidableEq T] [DecidableEq D] {s next : State T D}
  {action : Action T D} {t : T} {fd : D}

/-- What is being opened and closed. -/
structure Opened (s : State T D) : Prop where
  hook : ∀ t, s.hook t = true
  given : ∀ fd k, s.handle fd = some k → s.given k = some fd
  born : ∀ k fd, s.given k = some fd → k < s.sockets
  latest : ∀ fd k j, s.handle fd = some k → s.given j = some fd → j ≤ k
  alone : ∀ t u fd, (s.stage t).turns = some fd → (s.stage u).turns = some fd →
    t = u
  held : ∀ t fd, (s.stage t).turns = some fd → (s.handle fd).isSome = true

namespace Opened

omit [DecidableEq T] [DecidableEq D] in
/-- The sockets' contexts and associations do not matter. -/
theorem others {port : Nat → Option Nat} {datas : D → Option Nat}
    {ctx : Nat → FdCtx} {made : Nat} {last : Nat → SockOpt → Int64}
    {fdContexts : D → Option Nat} {contexts : Nat}
    {events : Nat → Event → Option T} (opened : s.Opened) :
    ({ s with
      port := port, datas := datas, ctx := ctx, made := made, last := last
      fdContexts := fdContexts, contexts := contexts
      events := events } : State T D).Opened :=
  ⟨opened.hook, opened.given, opened.born, opened.latest, opened.alone, opened.held⟩

omit [DecidableEq T] [DecidableEq D] in
theorem of_turns {stage : T → Stage D} (opened : s.Opened)
    (turns : ∀ t fd, (stage t).turns = some fd → (s.stage t).turns = some fd) :
    ({ s with stage := stage } : State T D).Opened where
  hook := opened.hook
  given := opened.given
  born := opened.born
  latest := opened.latest
  alone t u fd first second :=
    opened.alone t u fd (turns t fd first) (turns u fd second)
  held t fd turning := opened.held t fd (turns t fd turning)

omit [DecidableEq D] in
theorem move {stage : Stage D} (opened : s.Opened)
    (turns : ∀ fd, stage.turns = some fd → (s.stage t).turns = some fd) :
    (s.move t stage).Opened := by
  apply opened.of_turns
  intro u fd turning
  rw [Function.update_apply] at turning
  split at turning
  · rename_i same
    rw [same]
    exact turns fd turning
  · exact turning

omit [DecidableEq D] in
/-- A fiber takes a handle that no other is opening or closing. -/
theorem takes {stage : Stage D} (opened : s.Opened) (turns : stage.turns = some fd)
    (live : s.Live fd) : (s.move t stage).Opened where
  hook := opened.hook
  given := opened.given
  born := opened.born
  latest := opened.latest
  alone u w other first second := by
    have before := opened.alone u w other
    have apart := live.2
    rw [move_stage] at first second
    grind
  held u other turning := by
    rw [move_stage] at turning
    split at turning
    · cases turns.symm.trans turning
      exact live.1
    · exact opened.held u other turning

omit [DecidableEq D] in
theorem trigger (opened : s.Opened) (fd_ctx : Nat) (event : Event) :
    (s.trigger fd_ctx event).Opened := by
  unfold State.trigger
  split
  · exact opened
  · rename_i t set
    have moved : (s.move t .idle).Opened := opened.move (by simp [Stage.turns])
    exact moved.others

omit [DecidableEq D] in
theorem cancelAll (opened : s.Opened) (fd : D) : (s.cancelAll fd).Opened := by
  unfold State.cancelAll
  split
  · exact opened
  · exact (opened.trigger _ _).trigger _ _

omit [DecidableEq T] [DecidableEq D] in
theorem associate (opened : s.Opened) (fd : D) (fd_ctx : Nat) :
    (s.associate fd fd_ctx).Opened := by
  unfold State.associate
  split
  · exact opened
  · split
    · exact opened
    · exact opened.others

omit [DecidableEq D] in
theorem register (opened : s.Opened) (k : Nat) (fd : D) (fd_ctx : Nat)
    (event : Event) (isNew : Bool) :
    (s.register t k fd fd_ctx event isNew).Opened := by
  have moved : (s.move t (.waiting k fd fd_ctx event)).Opened :=
    opened.move (by simp [Stage.turns])
  cases isNew with
  | false => exact moved.others
  | true =>
      have associated : ((s.associate fd fd_ctx).move t
          (.waiting k fd fd_ctx event)).Opened :=
        (opened.associate fd fd_ctx).move (by simp [Stage.turns])
      rw [State.move, associate_stage] at associated
      exact associated.others

theorem step (opened : s.Opened) (registered : s.Registered)
    (proper : s.Proper action) (taken : Taken s action next) : next.Opened := by
  cases taken with
  | socket t fd idle free =>
      obtain ⟨hook, given, born, latest, alone, held⟩ := opened
      constructor <;> simp only [State.move, State.opens, Function.update_apply]
      · exact hook
      · grind
      · grind
      · grind
      · grind [Stage.turns]
      · grind [Stage.turns]
  | found t fd here found => exact opened.move (by simp [Stage.turns])
  | missed t fd here missed => exact opened.move (by simp [Stage.turns, here])
  | create t fd isSocket missed => exact opened.others.move (by simp [Stage.turns])
  | setTimeout t fd type v ctx idle found =>
      exact opened.move (by simp [Stage.turns])
  | ignored action => exact opened
  | store t ctx k type v setting => exact opened.others.move (by simp [Stage.turns])
  | known t fd event fd_ctx idle known => exact opened.move (by simp [Stage.turns])
  | new t fd event idle new => exact opened.move (by simp [Stage.turns])
  | insert t fd event inserting => exact opened.others.move (by simp [Stage.turns])
  | register t fd fd_ctx event isNew registering unused =>
      exact opened.register ((s.handle fd).getD s.sockets) fd fd_ctx event isNew
  | triggered action fd_ctx event => exact opened.trigger fd_ctx event
  | cancels t fd ctx idle found => exact opened.takes rfl proper.1
  | closes t fd idle missed => exact opened.takes rfl proper.1
  | cancelAll t fd cancelling =>
      apply (opened.cancelAll fd).move
      rw [registered.cancelAll_calm (congrArg Stage.waits cancelling), cancelling]
      exact fun fd => id
  | del t fd deleting => exact opened.others.move (by simp [Stage.turns, deleting])
  | release t fd closing =>
      obtain ⟨hook, given, born, latest, alone, held⟩ := opened
      have turning : (s.stage t).turns = some fd := by rw [closing]; rfl
      constructor <;> simp only [State.move, Function.update_apply]
      · exact hook
      · grind
      · exact born
      · grind
      · grind [Stage.turns]
      · grind [Stage.turns]

end Opened

/-- The `FdCtx` of every descriptor, with the socket that each was made for. -/
structure Entries (s : State T D) (owner : Nat → Nat) : Prop where
  entry : ∀ fd ctx, s.datas fd = some ctx →
    ctx < s.made ∧ s.handle fd = some (owner ctx)
  present : ∀ fd, (s.handle fd).isSome = true →
    (∀ t, (s.stage t).lacks ≠ some fd) → (s.datas fd).isSome = true
  lacking : ∀ t fd, (s.stage t).lacks = some fd → s.datas fd = none
  fresh : ∀ t fd k, (s.stage t).opens = some fd → s.handle fd = some k →
    (∀ type, s.last k type = -1) ∧ ∀ ctx, ctx < s.made → owner ctx ≠ k
  owned : ∀ ctx, ctx < s.made → owner ctx < s.sockets
  single : ∀ ctx other, ctx < s.made → other < s.made →
    owner ctx = owner other → ctx = other
  unset : ∀ k type, s.sockets ≤ k → s.last k type = -1
  value : ∀ ctx type, ctx < s.made →
    ((s.ctx ctx).getTimeout type).toInt64 = s.last (owner ctx) type
  setting : ∀ t ctx k type v, s.stage t = .setting ctx k type v →
    ctx < s.made ∧ owner ctx = k ∧ Fits v

namespace Entries

variable {owner : Nat → Nat}

omit [DecidableEq T] [DecidableEq D] in
theorem others {hook : T → Bool} {given : Nat → Option D}
    {port : Nat → Option Nat} {fdContexts : D → Option Nat} {contexts : Nat}
    {events : Nat → Event → Option T} (entries : s.Entries owner) :
    ({ s with
      hook := hook, given := given, port := port, fdContexts := fdContexts
      contexts := contexts, events := events } : State T D).Entries owner :=
  ⟨entries.entry, entries.present, entries.lacking, entries.fresh, entries.owned,
    entries.single, entries.unset, entries.value, entries.setting⟩

omit [DecidableEq T] [DecidableEq D] in
theorem of_stages {stage : T → Stage D} (entries : s.Entries owner)
    (lacks : ∀ t, (stage t).lacks = (s.stage t).lacks)
    (opens : ∀ t fd, (stage t).opens = some fd → (s.stage t).opens = some fd)
    (setting : ∀ t ctx k type v, stage t = .setting ctx k type v →
      ctx < s.made ∧ owner ctx = k ∧ Fits v) :
    ({ s with stage := stage } : State T D).Entries owner where
  entry := entries.entry
  present fd opened full :=
    entries.present fd opened fun t => lacks t ▸ full t
  lacking t fd missing := entries.lacking t fd (lacks t ▸ missing)
  fresh t fd k new := entries.fresh t fd k (opens t fd new)
  owned := entries.owned
  single := entries.single
  unset := entries.unset
  value := entries.value
  setting := setting

omit [DecidableEq D] in
theorem move {stage : Stage D} (entries : s.Entries owner)
    (lacks : stage.lacks = (s.stage t).lacks)
    (opens : ∀ fd, stage.opens = some fd → (s.stage t).opens = some fd)
    (setting : ∀ ctx k type v, stage = .setting ctx k type v →
      ctx < s.made ∧ owner ctx = k ∧ Fits v) :
    (s.move t stage).Entries owner := by
  have before := entries.setting
  apply entries.of_stages <;> intro u <;> rw [Function.update_apply] <;> split
  · rename_i same
    rw [same]
    exact lacks
  · rfl
  · rename_i same
    rw [same]
    exact opens
  · exact fun fd => id
  · exact setting
  · exact before u

omit [DecidableEq D] in
/-- A step to a stage of no account here. -/
theorem quiet {stage : Stage D} (entries : s.Entries owner)
    (lacked : (s.stage t).lacks = none) (lacks : stage.lacks = none)
    (opens : stage.opens = none)
    (setting : ∀ ctx k type v, stage ≠ .setting ctx k type v) :
    (s.move t stage).Entries owner := by
  apply entries.move
  · rw [lacks, lacked]
  · intro fd found
    rw [opens] at found
    cases found
  · intro ctx k type v same
    exact (setting ctx k type v same).elim

omit [DecidableEq D] in
theorem trigger (entries : s.Entries owner) (registered : s.Registered)
    (fd_ctx : Nat) (event : Event) : (s.trigger fd_ctx event).Entries owner := by
  unfold State.trigger
  split
  · exact entries
  · rename_i t set
    have waits := (registered fd_ctx event t).mp set
    have moved : (s.move t .idle).Entries owner := by
      apply entries.quiet _ rfl rfl
      · rintro ctx k type v ⟨⟩
      · cases stage : s.stage t <;> rw [stage] at waits <;> first | rfl | cases waits
    exact moved.others

omit [DecidableEq D] in
theorem cancelAll (entries : s.Entries owner) (registered : s.Registered) (fd : D) :
    (s.cancelAll fd).Entries owner := by
  unfold State.cancelAll
  split
  · exact entries
  · exact (entries.trigger registered _ _).trigger (registered.trigger _ _) _ _

omit [DecidableEq T] [DecidableEq D] in
theorem associate (entries : s.Entries owner) (fd : D) (fd_ctx : Nat) :
    (s.associate fd fd_ctx).Entries owner := by
  unfold State.associate
  split
  · exact entries
  · split
    · exact entries
    · exact entries.others

omit [DecidableEq D] in
theorem register (entries : s.Entries owner) (k : Nat) (fd : D) (fd_ctx : Nat)
    (event : Event) (isNew : Bool) (lacked : (s.stage t).lacks = none) :
    (s.register t k fd fd_ctx event isNew).Entries owner := by
  cases isNew with
  | false =>
      have moved : (s.move t (.waiting k fd fd_ctx event)).Entries owner :=
        entries.quiet lacked rfl rfl (by rintro ctx k type v ⟨⟩)
      exact moved.others
  | true =>
      have associated : ((s.associate fd fd_ctx).move t
          (.waiting k fd fd_ctx event)).Entries owner :=
        (entries.associate fd fd_ctx).quiet (by rw [associate_stage, lacked]) rfl rfl
          (by rintro ctx k type v ⟨⟩)
      rw [State.move, associate_stage] at associated
      exact associated.others

omit [DecidableEq T] [DecidableEq D] in
theorem datas_of_free (entries : s.Entries owner) (free : s.handle fd = none) :
    s.datas fd = none := by
  cases found : s.datas fd with
  | none => rfl
  | some ctx =>
      have opened := (entries.entry fd ctx found).2
      rw [free] at opened
      cases opened

omit [DecidableEq T] [DecidableEq D] in
theorem datas_of_live (entries : s.Entries owner) (live : s.Live fd) :
    ∃ ctx, s.datas fd = some ctx := by
  apply Option.isSome_iff_exists.mp
  apply entries.present fd live.1
  intro t lacks
  exact live.2 t (Stage.turns_of_lacks lacks)

theorem socket (entries : s.Entries owner) (opened : s.Opened)
    (idle : s.stage t = .idle) (free : s.handle fd = none) :
    ((s.opens fd).move t (.opened fd)).Entries owner := by
  have empty := entries.datas_of_free free
  have held := opened.held
  obtain ⟨entry, present, lacking, fresh, owned, single, unset, value, setting⟩ :=
    entries
  constructor <;> simp only [State.move, State.opens, Function.update_apply]
  · grind
  · grind [Stage.lacks]
  · grind [Stage.lacks]
  · intro u other k opens here
    split at here
    · cases here
      exact ⟨fun type => unset s.sockets type (Nat.le_refl _),
        fun ctx made => Nat.ne_of_lt (owned ctx made)⟩
    · grind [Stage.opens]
  · grind
  · exact single
  · grind
  · exact value
  · grind

theorem create (entries : s.Entries owner) (opened : s.Opened) {isSocket : Bool}
    (missed : s.stage t = .missed fd) :
    ∃ owner, ((s.create fd isSocket).move t .idle).Entries owner := by
  have turning : (s.stage t).turns = some fd := by rw [missed]; rfl
  have opening : (s.stage t).opens = some fd := by rw [missed]; rfl
  obtain ⟨k, here⟩ := Option.isSome_iff_exists.mp (opened.held t fd turning)
  have number := opened.born k fd (opened.given fd k here)
  have alone := fun u => opened.alone u t fd
  obtain ⟨entry, present, lacking, fresh, owned, single, unset, value, setting⟩ :=
    entries
  obtain ⟨new, unowned⟩ := fresh t fd k opening here
  refine ⟨Function.update owner s.made k, ?_⟩
  constructor <;> simp only [State.move, State.create, Function.update_apply]
  · grind
  · grind [Stage.lacks]
  · intro u other lacks
    split at lacks
    · cases lacks
    · rename_i apart
      have different : other ≠ fd := by
        rintro rfl
        exact apart (alone u (Stage.turns_of_lacks lacks) turning)
      rw [if_neg different]
      exact lacking u other lacks
  · intro u other j opens there
    split at opens
    · cases opens
    · rename_i apart
      obtain ⟨unset, unowned⟩ := fresh u other j opens there
      have different : k ≠ j := by
        rintro rfl
        cases (opened.given fd k here).symm.trans (opened.given other k there)
        exact apart (alone u
          (Stage.turns_of_lacks (Stage.lacks_of_opens opens)) turning)
      refine ⟨unset, fun ctx made => ?_⟩
      split
      · exact different
      · exact unowned ctx (by omega)
  · grind
  · grind
  · exact unset
  · intro ctx type made
    split
    · rw [getTimeout_new, new type]
      rfl
    · exact value ctx type (by omega)
  · grind

omit [DecidableEq D] in
theorem store (entries : s.Entries owner) {ctx k : Nat} {type : SockOpt} {v : Int64}
    (setting : s.stage t = .setting ctx k type v) :
    ((s.store ctx k type v).move t .idle).Entries owner := by
  obtain ⟨made, rfl, fits⟩ := entries.setting t ctx k type v setting
  obtain ⟨entry, present, lacking, fresh, owned, single, unset, value, setting⟩ :=
    entries
  constructor <;> simp only [State.move, State.store, Function.update_apply]
  · exact entry
  · grind [Stage.lacks]
  · grind [Stage.lacks]
  · intro u other j opens here
    split at opens
    · cases opens
    · obtain ⟨new, unowned⟩ := fresh u other j opens here
      rw [if_neg (Ne.symm (unowned ctx made))]
      exact ⟨new, unowned⟩
  · exact owned
  · exact single
  · grind
  · intro other also before
    by_cases same : other = ctx
    · subst same
      rw [if_pos rfl, if_pos rfl, getTimeout_setTimeout, Function.update_apply]
      split
      · exact stored_of_fits fits
      · exact value other also before
    · have apart : owner other ≠ owner ctx :=
        fun both => same (single other ctx before made both)
      rw [if_neg same, if_neg apart]
      exact value other also before
  · grind

theorem del (entries : s.Entries owner)
    (deleting : s.stage t = .deleting fd) :
    (({ s with datas := Function.update s.datas fd none } : State T D).move t
      (.closing fd)).Entries owner := by
  obtain ⟨entry, present, lacking, fresh, owned, single, unset, value, setting⟩ :=
    entries
  constructor <;> simp only [State.move, Function.update_apply]
  · grind
  · grind [Stage.lacks]
  · grind [Stage.lacks]
  · grind [Stage.opens]
  · exact owned
  · exact single
  · exact unset
  · exact value
  · grind

theorem release (entries : s.Entries owner)
    (closing : s.stage t = .closing fd) :
    (({ s with handle := Function.update s.handle fd none } : State T D).move t
      .idle).Entries owner := by
  have missing := entries.lacking t fd (by rw [closing]; rfl)
  obtain ⟨entry, present, lacking, fresh, owned, single, unset, value, setting⟩ :=
    entries
  constructor <;> simp only [State.move, Function.update_apply]
  · grind
  · grind [Stage.lacks]
  · grind [Stage.lacks]
  · grind [Stage.opens]
  · exact owned
  · exact single
  · exact unset
  · exact value
  · grind

theorem step (entries : s.Entries owner) (opened : s.Opened)
    (registered : s.Registered) (proper : s.Proper action) (taken : Taken s action next) :
    ∃ owner, next.Entries owner := by
  cases taken with
  | socket t fd idle free => exact ⟨owner, entries.socket opened idle free⟩
  | found t fd here found =>
      rw [entries.lacking t fd (by rw [here]; rfl)] at found
      cases found
  | missed t fd here missed =>
      refine ⟨owner, entries.move (by rw [here]; rfl) ?_ ?_⟩
      · rw [here]
        exact fun fd => id
      · rintro ctx k type v ⟨⟩
  | create t fd isSocket missed => exact entries.create opened missed
  | setTimeout t fd type v ctx idle found =>
      obtain ⟨made, here⟩ := entries.entry fd ctx found
      refine ⟨owner, entries.move (by rw [idle]; rfl) ?_ ?_⟩
      · rintro fd ⟨⟩
      · rintro ctx k type v ⟨⟩
        rw [here]
        exact ⟨made, rfl, proper.2⟩
  | ignored action => exact ⟨owner, entries⟩
  | store t ctx k type v setting => exact ⟨owner, entries.store setting⟩
  | known t fd event fd_ctx idle known =>
      exact ⟨owner, entries.quiet (congrArg Stage.lacks idle) rfl rfl nofun⟩
  | new t fd event idle new =>
      exact ⟨owner, entries.quiet (congrArg Stage.lacks idle) rfl rfl nofun⟩
  | insert t fd event inserting =>
      exact ⟨owner,
        entries.others.quiet (congrArg Stage.lacks inserting) rfl rfl nofun⟩
  | register t fd fd_ctx event isNew registering unused =>
      exact ⟨owner, entries.register ((s.handle fd).getD s.sockets) fd fd_ctx event
        isNew (congrArg Stage.lacks registering)⟩
  | triggered action fd_ctx event =>
      exact ⟨owner, entries.trigger registered fd_ctx event⟩
  | cancels t fd ctx idle found =>
      exact ⟨owner, entries.quiet (by rw [idle]; rfl) rfl rfl nofun⟩
  | closes t fd idle missed =>
      obtain ⟨ctx, found⟩ := entries.datas_of_live proper.1
      rw [missed] at found
      cases found
  | cancelAll t fd cancelling =>
      refine ⟨owner, (entries.cancelAll registered fd).quiet ?_ rfl rfl nofun⟩
      rw [registered.cancelAll_calm (congrArg Stage.waits cancelling), cancelling]
      rfl
  | del t fd deleting => exact ⟨owner, entries.del deleting⟩
  | release t fd closing => exact ⟨owner, entries.release closing⟩

end Entries

omit [DecidableEq T] [DecidableEq D] in
theorem Initial.opened (initial : s.Initial) : s.Opened where
  hook := initial.hook
  given fd k opened := by
    rw [initial.handle] at opened
    cases opened
  born k fd given := by
    rw [initial.given] at given
    cases given
  latest fd k j opened := by
    rw [initial.handle] at opened
    cases opened
  alone t u fd turning := by
    rw [initial.stage] at turning
    cases turning
  held t fd turning := by
    rw [initial.stage] at turning
    cases turning

omit [DecidableEq T] [DecidableEq D] in
theorem Initial.entries (initial : s.Initial) : s.Entries id := by
  have nothing : ¬∃ ctx, ctx < s.made := by
    rw [initial.made]
    exact fun ⟨ctx, made⟩ => Nat.not_lt_zero ctx made
  constructor
  · intro fd ctx found
    rw [initial.datas] at found
    cases found
  · intro fd opened
    rw [initial.handle] at opened
    cases opened
  · intro t fd lacks
    rw [initial.stage] at lacks
    cases lacks
  · intro t fd k opens
    rw [initial.stage] at opens
    cases opens
  · exact fun ctx made => (nothing ⟨ctx, made⟩).elim
  · exact fun ctx other made => (nothing ⟨ctx, made⟩).elim
  · exact fun k type _ => initial.last k type
  · exact fun ctx type made => (nothing ⟨ctx, made⟩).elim
  · intro t ctx k type v setting
    rw [initial.stage] at setting
    cases setting

theorem Opened.run (reached : Reach Initial (StepWhen State.step Proper) s) :
    s.Opened ∧ s.Registered := by
  apply reached.invariant
  · exact fun s initial => ⟨initial.opened, initial.registered⟩
  · rintro s action next ⟨opened, registered⟩ taken
    have step := step_taken opened.hook taken.2
    exact ⟨opened.step registered taken.1 step, registered.step step⟩

theorem Entries.run (reached : Reach Initial (StepWhen State.step Proper) s) :
    ∃ owner, s.Entries owner := by
  induction reached with
  | start s initial => exact ⟨id, initial.entries⟩
  | step s action next reached taken ih =>
      obtain ⟨owner, entries⟩ := ih
      obtain ⟨opened, registered⟩ := Opened.run reached
      exact entries.step opened registered taken.1 (step_taken opened.hook taken.2)

section Witness

/-- Nothing is open. -/
def closed : State Bool Unit where
  stage _ := .idle
  hook _ := true
  handle _ := none
  sockets := 0
  given _ := none
  port _ := none
  datas _ := none
  ctx _ := .new true
  made := 0
  last _ _ := -1
  fdContexts _ := none
  contexts := 0
  events _ _ := none

end Witness

end State

end Sylar.Handles
