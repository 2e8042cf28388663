import Sylar.Scheduler.Context

namespace Sylar.Scheduler

open Logic

variable {W F S C : Type}

/-- Whether the worker is in `run()`, inside a fiber, or landed in `swapIn` with
the context of the fiber not yet stored. -/
inductive Stay (W F : Type)
  | home
  | inside (fib : Fib W F)
  | landed (fib : Fib W F)

/-- The fiber whose `m_ctx` is out of date. -/
def Stay.away? : Stay W F → Option (Fib W F)
  | .home => none
  | .inside fib => some fib
  | .landed fib => some fib

/-- The fiber suspended by its own jump, or not yet entered. -/
def Suspended.fib? : Suspended W F → Option (Fib W F)
  | .main fib => some fib
  | .swapOut fib => some fib
  | .ended fib => some fib
  | _ => none

/-- How a fiber in this state, out of its code, is suspended. -/
def Fits (fib : Fib W F) : FiberState → Suspended W F → Prop
  | .INIT, one => one = .main fib
  | .EXEC, one => one = .main fib ∨ one = .swapOut fib
  | .HOLD, one => one = .swapOut fib
  | .READY, one => one = .swapOut fib
  | .TERM, one => one = .ended fib
  | .EXCEPT, one => one = .ended fib

theorem Fits.fib {fib : Fib W F} {state : FiberState} {one : Suspended W F}
    (fits : Fits fib state one) : one.fib? = some fib := by
  cases state with
  | EXEC => rcases fits with rfl | rfl <;> rfl
  | _ => cases fits; rfl

/-- A fiber that can be resumed has not ended. -/
theorem Fits.resumes {fib : Fib W F} {state : FiberState} {one : Suspended W F}
    (fits : Fits fib state one) (running : state.ended = false) :
    one = .main fib ∨ one = .swapOut fib := by
  cases state with
  | INIT => exact .inl fits
  | EXEC => exact fits
  | HOLD => exact .inr fits
  | READY => exact .inr fits
  | TERM => cases running
  | EXCEPT => cases running

variable [DecidableEq W] [DecidableEq F] [DecidableEq S]

namespace Contexts

/-- The `swapOut` of the fiber on this worker jumps into the `swapIn` that last
resumed the fiber, on this worker. -/
structure Returns (caller : Option W) (c : Contexts W F) (worker : W)
    (fib : Fib W F) : Prop where
  live : c.pool.Live (c.mainCtx caller worker) (.swapIn worker fib)
  last : c.mainCtx caller worker = c.resumed fib

/-- What the root fiber and the caller thread rely on. -/
structure Rooted (c : Contexts W F) (worker : W) (stay : Stay W F) : Prop where
  home : c.phase ≠ .running → stay = .home
  outside : c.phase = .outside → c.pool.Live c.rootCtx .callerMain
  called : c.phase = .running → c.entered worker = false →
    c.pool.Live (c.threadCtx worker) .call
  used : c.phase = .running → (∀ fib, stay ≠ .inside fib) ∨ c.entered worker = true →
    0 < c.pool.jumps c.rootCtx

/-- What a worker relies on that stays here. -/
structure Poised (caller : Option W) (c : Contexts W F) (worker : W)
    (stay : Stay W F) (state : Fib W F → FiberState) : Prop where
  landed : ∀ fib, stay = .landed fib →
    ∃ one, c.pool.Live (c.transfer worker) one ∧ Fits fib (state fib) one
  inside : ∀ fib, stay = .inside fib →
    (caller = some worker ∧ c.entered worker = true) ∨
      c.Returns caller worker fib
  entered : c.entered worker = true → ∃ fib, stay = .inside fib

/-- The contexts when the workers stay here, and these fibers are made and in
these states. -/
structure Nested (caller : Option W) (c : Contexts W F) (stay : W → Stay W F)
    (state : Fib W F → FiberState) (made : Fib W F → Prop) : Prop where
  sound : c.pool.Sound
  astray : c.astray = false
  stored : ∀ fib, made fib → (∀ worker, (stay worker).away? ≠ some fib) →
    ∃ one, c.pool.Live (c.ctx fib) one ∧ Fits fib (state fib) one
  poised : ∀ worker, c.Poised caller worker (stay worker) state
  rooted : ∀ worker, caller = some worker → c.Rooted worker (stay worker)

variable {caller : Option W} {c next : Contexts W F} {stay : W → Stay W F}
  {state : Fib W F → FiberState} {made : Fib W F → Prop} {worker other : W}
  {fib : Fib W F} {one : Suspended W F} {context : Nat}

omit [DecidableEq F] in
theorem setThreadCtx_mainCtx (different : other ≠ worker) :
    (c.setThreadCtx worker context).mainCtx caller other =
      c.mainCtx caller other := by
  unfold mainCtx
  split
  · rfl
  · exact Function.update_of_ne different _ _

omit [DecidableEq F] in
theorem setMainCtx_eq : c.setMainCtx caller worker context =
    { c with
      rootCtx := if caller = some worker then context else c.rootCtx
      threadCtx := if caller = some worker then c.threadCtx
        else Function.update c.threadCtx worker context } := by
  unfold setMainCtx
  split <;> rfl

omit [DecidableEq F] in
theorem setMainCtx_self :
    (c.setMainCtx caller worker context).mainCtx caller worker = context := by
  by_cases called : caller = some worker
  · simp [setMainCtx, mainCtx, called]
  · simp [setMainCtx, mainCtx, setThreadCtx, called]

omit [DecidableEq F] in
theorem setMainCtx_mainCtx (different : other ≠ worker) :
    (c.setMainCtx caller worker context).mainCtx caller other =
      c.mainCtx caller other := by
  by_cases called : caller = some worker
  · have elsewhere : caller ≠ some other := by
      rw [called]
      exact fun same => different (Option.some.inj same).symm
    simp [setMainCtx, mainCtx, called, different.symm]
  · rw [setMainCtx, if_neg called]
    exact setThreadCtx_mainCtx different

/-- What an operation of one worker leaves to the others, a jump to `gone`. -/
structure Frame (caller : Option W) (c next : Contexts W F) (worker : W)
    (gone : Suspended W F) : Prop where
  live : ∀ context one, one ≠ gone → c.pool.Live context one →
    next.pool.Live context one
  jumps : ∀ context, c.pool.jumps context ≤ next.pool.jumps context
  transfer : ∀ other, other ≠ worker → next.transfer other = c.transfer other
  entered : ∀ other, other ≠ worker → next.entered other = c.entered other
  mainCtx : ∀ other, other ≠ worker →
    next.mainCtx caller other = c.mainCtx caller other
  threadCtx : ∀ other, other ≠ worker →
    next.threadCtx other = c.threadCtx other

omit [DecidableEq F] in
theorem Poised.frame {gone : Suspended W F} {stay : Stay W F}
    (poised : c.Poised caller other stay state)
    (frame : c.Frame caller next worker gone) (different : other ≠ worker)
    (inside : ∀ fib, stay = .inside fib →
      gone ≠ .swapIn other fib ∧ next.resumed fib = c.resumed fib)
    (landed : ∀ fib, stay = .landed fib → gone.fib? ≠ some fib) :
    next.Poised caller other stay state := by
  refine ⟨?_, ?_, ?_⟩
  · intro fib here
    obtain ⟨one, live, fits⟩ := poised.landed fib here
    rw [frame.transfer other different]
    refine ⟨one, frame.live _ one ?_ live, fits⟩
    intro same
    apply landed fib here
    rw [← same]
    exact fits.fib
  · intro fib here
    obtain ⟨apart, resumed⟩ := inside fib here
    rw [frame.entered other different]
    rcases poised.inside fib here with entered | returns
    · exact .inl entered
    · right
      refine ⟨?_, ?_⟩
      · rw [frame.mainCtx other different]
        exact frame.live _ _ apart.symm returns.live
      · rw [frame.mainCtx other different, resumed]
        exact returns.last
  · rw [frame.entered other different]
    exact poised.entered

omit [DecidableEq F] in
theorem Rooted.frame {gone : Suspended W F} {stay : Stay W F}
    (rooted : c.Rooted other stay) (frame : c.Frame caller next worker gone)
    (called : caller = some other) (different : other ≠ worker)
    (phase : next.phase = c.phase)
    (plain : gone ≠ .callerMain ∧ gone ≠ .call) : next.Rooted other stay := by
  have rootCtx : next.rootCtx = c.rootCtx := by
    have same := frame.mainCtx other different
    rw [mainCtx, mainCtx, if_pos called, if_pos called] at same
    exact same
  refine ⟨?_, ?_, ?_, ?_⟩
  · rw [phase]
    exact rooted.home
  · intro outside
    rw [phase] at outside
    rw [rootCtx]
    exact frame.live _ _ plain.1.symm (rooted.outside outside)
  · intro running entered
    rw [phase] at running
    rw [frame.entered other different] at entered
    rw [frame.threadCtx other different]
    exact frame.live _ _ plain.2.symm (rooted.called running entered)
  · intro running outside
    rw [phase] at running
    rw [frame.entered other different] at outside
    rw [rootCtx]
    exact Nat.lt_of_lt_of_le (rooted.used running outside) (frame.jumps _)

omit [DecidableEq W] [DecidableEq F] in
theorem Rooted.of_running {stay : Stay W F} (running : c.phase = .running)
    (called : c.entered worker = false →
      c.pool.Live (c.threadCtx worker) .call)
    (used : (∀ fib, stay ≠ .inside fib) ∨ c.entered worker = true →
      0 < c.pool.jumps c.rootCtx) : c.Rooted worker stay where
  home := fun away => absurd running away
  outside := by
    intro outside
    rw [running] at outside
    cases outside
  called := fun _ => called
  used := fun _ => used

omit [DecidableEq W] [DecidableEq F] in
theorem still_right {relied : Bool} (astray : c.astray = false)
    (live : c.pool.Live context one) (right : relied = true) :
    (c.astray || !(decide (c.pool.jumps context = 0) && relied)) = false := by
  simp [astray, live.unused, right]

/-! The operations, each on the contexts as they are between two steps. -/

theorem Nested.make {after : Fib W F → FiberState} {known : Fib W F → Prop}
    (nested : c.Nested caller stay state made)
    (free : ∀ worker, (stay worker).away? ≠ some fib)
    (init : after fib = .INIT)
    (states : ∀ other, other ≠ fib → after other = state other)
    (knows : ∀ other, other ≠ fib → known other → made other) :
    (c.make fib).Nested caller stay after known := by
  refine ⟨nested.sound.make _, nested.astray, ?_, ?_, ?_⟩
  · intro other existing home
    rcases eq_or_ne other fib with rfl | different
    · refine ⟨.main other, ?_, ?_⟩
      · change (c.pool.make (.main other)).Live
          (Function.update c.ctx other c.pool.next other) _
        rw [Function.update_self]
        exact nested.sound.made _
      · rw [init]
        rfl
    · obtain ⟨one, live, fits⟩ :=
        nested.stored other (knows other different existing) home
      refine ⟨one, ?_, ?_⟩
      · change (c.pool.make (.main fib)).Live
          (Function.update c.ctx fib c.pool.next other) _
        rw [Function.update_of_ne different]
        exact live.make _
      · rw [states other different]
        exact fits
  · intro worker
    have poised := nested.poised worker
    refine ⟨?_, ?_, poised.entered⟩
    · intro other here
      obtain ⟨one, live, fits⟩ := poised.landed other here
      refine ⟨one, live.make _, ?_⟩
      rw [states other]
      · exact fits
      · rintro rfl
        apply free worker
        rw [here]
        rfl
    · intro other here
      rcases poised.inside other here with entered | returns
      · exact .inl entered
      · exact .inr ⟨returns.live.make _, returns.last⟩
  · intro worker called
    have rooted := nested.rooted worker called
    exact ⟨rooted.home, fun outside => (rooted.outside outside).make _,
      fun running entered => (rooted.called running entered).make _,
      rooted.used⟩

theorem Nested.store (nested : c.Nested caller stay state made)
    (landed : stay worker = .landed fib) :
    (c.store worker fib).Nested caller (Function.update stay worker .home)
      state made := by
  have poised := nested.poised worker
  refine ⟨nested.sound, nested.astray, ?_, ?_, ?_⟩
  · intro other existing home
    change ∃ one, c.pool.Live
      (Function.update c.ctx fib (c.transfer worker) other) one ∧ _
    rcases eq_or_ne other fib with rfl | different
    · rw [Function.update_self]
      exact poised.landed other landed
    · rw [Function.update_of_ne different]
      apply nested.stored other existing
      intro one away
      rcases eq_or_ne one worker with rfl | elsewhere
      · rw [landed] at away
        exact different (Option.some.inj away).symm
      · apply home one
        rw [Function.update_of_ne elsewhere]
        exact away
  · refine (Function.forall_update_iff stay fun one stay =>
      (c.store worker fib).Poised caller one stay state).mpr ⟨?_, ?_⟩
    · refine ⟨nofun, nofun, ?_⟩
      intro entered
      obtain ⟨inner, inside⟩ := poised.entered entered
      rw [landed] at inside
      cases inside
    · intro one _
      have others := nested.poised one
      refine ⟨others.landed, ?_, others.entered⟩
      intro inner inside
      rcases others.inside inner inside with entered | returns
      · exact .inl entered
      · exact .inr ⟨returns.live, returns.last⟩
  · refine (Function.forall_update_iff stay fun one stay =>
      caller = some one → (c.store worker fib).Rooted one stay).mpr ⟨?_, ?_⟩
    · intro called
      have rooted := nested.rooted worker called
      refine ⟨fun _ => rfl, rooted.outside,
        rooted.called, fun running _ => rooted.used running (.inl ?_)⟩
      rw [landed]
      nofun
    · intro one _ called
      have rooted := nested.rooted one called
      exact ⟨rooted.home, rooted.outside, rooted.called, rooted.used⟩

omit [DecidableEq F] in
/-- The states of fibers change, other than of a fiber that a worker is inside. -/
theorem Nested.states {after : Fib W F → FiberState}
    (nested : c.Nested caller stay state made)
    (fits : ∀ fib, (∀ worker, stay worker ≠ .inside fib) → ∀ one,
      Fits fib (state fib) one → Fits fib (after fib) one)
    (apart : ∀ worker other fib, stay worker = .landed fib →
      stay other ≠ .inside fib) :
    c.Nested caller stay after made := by
  refine ⟨nested.sound, nested.astray, ?_, ?_, nested.rooted⟩
  · intro fib existing home
    obtain ⟨one, live, fit⟩ := nested.stored fib existing home
    refine ⟨one, live, fits fib ?_ one fit⟩
    intro worker inside
    apply home worker
    rw [inside]
    rfl
  · intro worker
    have poised := nested.poised worker
    refine ⟨?_, poised.inside, poised.entered⟩
    intro fib landed
    obtain ⟨one, live, fit⟩ := poised.landed fib landed
    exact ⟨one, live, fits fib (fun other => apart worker other fib landed) one
      fit⟩

theorem swapOut_frame (returns : c.Returns caller worker fib) (final : Bool) :
    c.Frame caller (c.swapOut caller worker fib final) worker
      (.swapIn worker fib) where
  live := fun _ _ different live => live.jump returns.live different _
  jumps := Pool.jumps_le_jump _ _ _
  transfer := fun _ different => Function.update_of_ne different _ _
  entered := fun _ different => Function.update_of_ne different _ _
  mainCtx := fun _ _ => rfl
  threadCtx := fun _ _ => rfl

theorem Nested.swapOut {final : Bool}
    (nested : c.Nested caller stay state made)
    (inside : stay worker = .inside fib)
    (returned : c.Returns caller worker fib)
    (unentered : caller = some worker → c.entered worker = false)
    (running : caller = some worker → c.phase = .running)
    (leaves : Fits fib (state fib)
      (if final then .ended fib else .swapOut fib)) :
    (c.swapOut caller worker fib final).Nested caller
      (Function.update stay worker (.landed fib)) state made := by
  have frame := swapOut_frame returned final
  have live := returned.live
  refine ⟨nested.sound.jump live _, ?_, ?_, ?_, ?_⟩
  · apply still_right nested.astray live
    rw [live.holds, ← returned.last]
    simp
  · intro other existing home
    obtain ⟨one, live, fits⟩ := nested.stored other existing (by
      intro one away
      rcases eq_or_ne one worker with rfl | elsewhere
      · apply home one
        rw [Function.update_self, ← away, inside]
        rfl
      · apply home one
        rw [Function.update_of_ne elsewhere]
        exact away)
    refine ⟨one, frame.live _ one ?_ live, fits⟩
    rintro rfl
    have owned := fits.fib
    cases owned
  · refine (Function.forall_update_iff stay fun one stay =>
      (c.swapOut caller worker fib final).Poised caller one stay state).mpr
        ⟨⟨?_, nofun, ?_⟩, ?_⟩
    · rintro inner ⟨⟩
      refine ⟨_, ?_, leaves⟩
      change (c.pool.jump _ _).Live
        (Function.update c.transfer worker c.pool.next worker) _
      rw [Function.update_self]
      exact nested.sound.suspended live _
    · intro entered
      change Function.update c.entered worker false worker = true at entered
      rw [Function.update_self] at entered
      cases entered
    · intro one elsewhere
      refine (nested.poised one).frame frame elsewhere ?_ ?_
      · refine fun inner _ => ⟨?_, rfl⟩
        rintro ⟨⟩
        exact elsewhere rfl
      · exact fun _ _ => nofun
  · refine (Function.forall_update_iff stay fun one stay => caller = some one →
      (c.swapOut caller worker fib final).Rooted one stay).mpr ⟨?_, ?_⟩
    · intro called
      have phase := running called
      apply Rooted.of_running
      · exact phase
      · intro _
        exact frame.live _ _ nofun
          ((nested.rooted worker called).called phase (unentered called))
      · intro _
        change 0 < (c.pool.jump (c.mainCtx caller worker) _).jumps c.rootCtx
        rw [mainCtx, if_pos called]
        exact Pool.jump_jumps _ _ _
    · intro one elsewhere called
      exact (nested.rooted one called).frame frame called elsewhere rfl
        ⟨nofun, nofun⟩

/-- A jump into a fiber that is in no worker. -/
theorem Nested.arrive {target : Suspended W F}
    (nested : c.Nested caller stay state made)
    (home : stay worker = .home)
    (free : ∀ worker, (stay worker).away? ≠ some fib)
    (live : c.pool.Live (c.ctx fib) target) (owned : target.fib? = some fib)
    (frame : c.Frame caller next worker target)
    (pool : next.pool = c.pool.jump (c.ctx fib) (.swapIn worker fib))
    (ctx : next.ctx = c.ctx) (phase : next.phase = c.phase)
    (astray : next.astray = false)
    (resumed : next.resumed = Function.update c.resumed fib c.pool.next)
    (lands : (caller = some worker ∧ next.entered worker = true) ∨
      next.mainCtx caller worker = c.pool.next)
    (rooted : caller = some worker → next.Rooted worker (.inside fib)) :
    next.Nested caller (Function.update stay worker (.inside fib)) state
      made := by
  have suspended : next.pool.Live c.pool.next (.swapIn worker fib) := by
    rw [pool]
    exact nested.sound.suspended live _
  refine ⟨?_, astray, ?_, ?_, ?_⟩
  · rw [pool]
    exact nested.sound.jump live _
  · intro other existing nowhere
    have elsewhere : other ≠ fib := by
      rintro rfl
      apply nowhere worker
      rw [Function.update_self]
      rfl
    have before : ∀ one, (stay one).away? ≠ some other := by
      intro one away
      apply nowhere one
      rw [Function.update_of_ne]
      · exact away
      · rintro rfl
        rw [home] at away
        cases away
    obtain ⟨one, live, fits⟩ := nested.stored other existing before
    rw [ctx]
    refine ⟨one, frame.live _ one ?_ live, fits⟩
    rintro rfl
    rw [fits.fib] at owned
    exact elsewhere (Option.some.inj owned)
  · refine (Function.forall_update_iff stay fun one stay =>
      next.Poised caller one stay state).mpr
        ⟨⟨nofun, ?_, fun _ => ⟨fib, rfl⟩⟩, ?_⟩
    · rintro inner ⟨⟩
      rcases lands with entered | lands
      · exact .inl entered
      · right
        refine ⟨?_, ?_⟩
        · rw [lands]
          exact suspended
        · rw [lands, resumed, Function.update_self]
    · intro one different
      refine (nested.poised one).frame frame different ?_ ?_
      · intro inner inside
        refine ⟨?_, ?_⟩
        · rintro rfl
          cases owned
        · rw [resumed]
          apply Function.update_of_ne
          rintro rfl
          apply free one
          rw [inside]
          rfl
      · intro inner landed
        rw [owned]
        rintro ⟨⟩
        apply free one
        rw [landed]
        rfl
  · refine (Function.forall_update_iff stay fun one stay =>
      caller = some one → next.Rooted one stay).mpr ⟨rooted, ?_⟩
    intro one different called
    refine (nested.rooted one called).frame frame called different phase ?_
    constructor
    · rintro rfl
      cases owned
    · rintro rfl
      cases owned

/-- `MainFunc` starts, and stores the context of `run()` in `t_threadFiber`. -/
theorem Nested.start (nested : c.Nested caller stay state made)
    (home : stay worker = .home)
    (free : ∀ worker, (stay worker).away? ≠ some fib)
    (running : caller = some worker → c.phase = .running)
    (live : c.pool.Live (c.ctx fib) (.main fib)) :
    (c.swapIn caller worker fib).Nested caller
      (Function.update stay worker (.inside fib)) state made := by
  have arrives : c.swapIn caller worker fib =
      { c.jump (c.ctx fib) (.swapIn worker fib) true with
        entered := Function.update c.entered worker true
        resumed := Function.update c.resumed fib c.pool.next
        threadCtx := Function.update c.threadCtx worker c.pool.next } := by
    simp [Contexts.swapIn, live.holds, setThreadCtx, jump]
  have frame : c.Frame caller (c.swapIn caller worker fib) worker
      (.main fib) := by
    rw [arrives]
    exact {
      live := fun _ _ different also => also.jump live different _
      jumps := Pool.jumps_le_jump _ _ _
      transfer := fun _ _ => rfl
      entered := fun _ different => Function.update_of_ne different _ _
      mainCtx := fun _ different => setThreadCtx_mainCtx different
      threadCtx := fun _ different => Function.update_of_ne different _ _ }
  rw [arrives] at frame ⊢
  apply nested.arrive home free live rfl frame
  · rfl
  · rfl
  · rfl
  · exact still_right nested.astray live rfl
  · rfl
  · by_cases called : caller = some worker
    · exact .inl ⟨called, Function.update_self _ _ _⟩
    · right
      rw [mainCtx, if_neg called]
      exact Function.update_self _ _ _
  · intro called
    have phase := running called
    apply Rooted.of_running
    · exact phase
    · intro entered
      change Function.update c.entered worker true worker = false at entered
      rw [Function.update_self] at entered
      cases entered
    · intro _
      refine Nat.lt_of_lt_of_le
        ((nested.rooted worker called).used phase (.inl ?_)) (frame.jumps _)
      rw [home]
      nofun

/-- A fiber goes on in `swapOut`, and stores the context of `run()` in the main
fiber. -/
theorem Nested.resume (nested : c.Nested caller stay state made)
    (home : stay worker = .home)
    (free : ∀ worker, (stay worker).away? ≠ some fib)
    (running : caller = some worker → c.phase = .running)
    (live : c.pool.Live (c.ctx fib) (.swapOut fib)) :
    (c.swapIn caller worker fib).Nested caller
      (Function.update stay worker (.inside fib)) state made := by
  have arrives : c.swapIn caller worker fib =
      { c.jump (c.ctx fib) (.swapIn worker fib) true with
        entered := Function.update c.entered worker false
        resumed := Function.update c.resumed fib c.pool.next }.setMainCtx
          caller worker c.pool.next := by
    simp [Contexts.swapIn, live.holds, jump]
  have frame : c.Frame caller (c.swapIn caller worker fib) worker
      (.swapOut fib) := by
    rw [arrives]
    refine {
      live := ?_
      jumps := ?_
      transfer := ?_
      entered := ?_
      mainCtx := fun _ different => setMainCtx_mainCtx different
      threadCtx := ?_ }
    all_goals rw [setMainCtx_eq]
    · exact fun _ _ different also => also.jump live different _
    · exact Pool.jumps_le_jump _ _ _
    · exact fun _ _ => rfl
    · exact fun _ different => Function.update_of_ne different _ _
    · intro other different
      dsimp only
      split
      · rfl
      · exact Function.update_of_ne different _ _
  rw [arrives] at frame ⊢
  apply nested.arrive home free live rfl frame
  · rw [setMainCtx_eq]
    rfl
  · rw [setMainCtx_eq]
    rfl
  · rw [setMainCtx_eq]
    rfl
  · rw [setMainCtx_eq]
    exact still_right nested.astray live rfl
  · rw [setMainCtx_eq]
  · exact .inr setMainCtx_self
  · intro called
    have phase := running called
    have outside : ∀ fib, stay worker ≠ .inside fib := by
      rw [home]
      nofun
    have unentered : c.entered worker = false := by
      by_contra entered
      obtain ⟨inner, inside⟩ :=
        (nested.poised worker).entered (Bool.not_eq_false _ ▸ entered)
      exact outside inner inside
    rw [setMainCtx_eq] at frame ⊢
    apply Rooted.of_running
    · exact phase
    · intro _
      have before := (nested.rooted worker called).called phase unentered
      have after := frame.live _ .call nofun before
      simpa [called, jump] using after
    · rintro (away | entered)
      · exact absurd rfl (away fib)
      · change Function.update c.entered worker false worker = true at entered
        rw [Function.update_self] at entered
        cases entered

theorem Nested.swapIn (nested : c.Nested caller stay state made)
    (home : stay worker = .home)
    (free : ∀ worker, (stay worker).away? ≠ some fib)
    (running : caller = some worker → c.phase = .running)
    (existing : made fib) (alive : (state fib).ended = false) :
    (c.swapIn caller worker fib).Nested caller
      (Function.update stay worker (.inside fib)) state made := by
  obtain ⟨one, live, fits⟩ := nested.stored fib existing free
  rcases fits.resumes alive with rfl | rfl
  · exact nested.start home free running live
  · exact nested.resume home free running live

omit [DecidableEq F] in
/-- A jump on the caller thread between `stop()` and the root fiber. -/
theorem Nested.depart {target suspends : Suspended W F}
    (nested : c.Nested caller stay state made)
    (called : caller = some worker) (home : stay worker = .home)
    (live : c.pool.Live context target) (unowned : target.fib? = none)
    (plain : ∀ other fib, target ≠ .swapIn other fib)
    (frame : c.Frame caller next worker target)
    (pool : next.pool = c.pool.jump context suspends)
    (ctx : next.ctx = c.ctx) (astray : next.astray = false)
    (resumed : next.resumed = c.resumed) (entered : next.entered = c.entered)
    (rooted : next.Rooted worker (stay worker)) :
    next.Nested caller stay state made := by
  refine ⟨?_, astray, ?_, ?_, ?_⟩
  · rw [pool]
    exact nested.sound.jump live _
  · intro fib existing nowhere
    obtain ⟨one, live, fits⟩ := nested.stored fib existing nowhere
    rw [ctx]
    refine ⟨one, frame.live _ one ?_ live, fits⟩
    rintro rfl
    rw [fits.fib] at unowned
    cases unowned
  · intro one
    rcases eq_or_ne one worker with rfl | different
    · rw [home]
      refine ⟨nofun, nofun, ?_⟩
      rw [entered, ← home]
      exact (nested.poised one).entered
    · refine (nested.poised one).frame frame different ?_ ?_
      · exact fun fib _ => ⟨plain one fib, by rw [resumed]⟩
      · rw [unowned]
        exact fun _ _ => nofun
  · intro one also
    rw [called] at also
    cases also
    exact rooted

theorem Nested.call (nested : c.Nested caller stay state made)
    (called : caller = some worker) (outside : c.phase = .outside) :
    (c.call worker).Nested caller stay state made := by
  have rooted := nested.rooted worker called
  have live := rooted.outside outside
  have home : stay worker = .home := by
    apply rooted.home
    rw [outside]
    nofun
  have frame : c.Frame caller (c.call worker) worker .callerMain := {
    live := fun _ _ different also => also.jump live different _
    jumps := Pool.jumps_le_jump _ _ _
    transfer := fun _ _ => rfl
    entered := fun _ _ => rfl
    mainCtx := fun _ different => setThreadCtx_mainCtx different
    threadCtx := fun _ different => Function.update_of_ne different _ _ }
  apply nested.depart called home live rfl nofun frame
  · rfl
  · rfl
  · apply still_right nested.astray live
    simp [live.holds]
  · rfl
  · rfl
  · apply Rooted.of_running
    · rfl
    · intro _
      change (c.pool.jump _ _).Live
        (Function.update c.threadCtx worker c.pool.next worker) _
      rw [Function.update_self]
      exact nested.sound.suspended live _
    · exact fun _ => Pool.jump_jumps _ _ _

omit [DecidableEq F] in
/-- The caller thread is in `run()` itself: `back` goes to the `call`. -/
theorem Nested.returned (nested : c.Nested caller stay state made)
    (called : caller = some worker) (running : c.phase = .running)
    (home : stay worker = .home) :
    c.pool.Live (c.threadCtx worker) .call := by
  apply (nested.rooted worker called).called running
  by_contra entered
  obtain ⟨fib, inside⟩ :=
    (nested.poised worker).entered (Bool.not_eq_false _ ▸ entered)
  rw [home] at inside
  cases inside

theorem Nested.back (nested : c.Nested caller stay state made)
    (called : caller = some worker) (running : c.phase = .running)
    (home : stay worker = .home) :
    (c.back worker).Nested caller stay state made := by
  have live := nested.returned called running home
  have frame : c.Frame caller (c.back worker) worker .call := {
    live := fun _ _ different also => also.jump live different _
    jumps := Pool.jumps_le_jump _ _ _
    transfer := fun _ _ => rfl
    entered := fun _ _ => rfl
    mainCtx := by
      intro other different
      have elsewhere : caller ≠ some other := by
        rw [called]
        exact fun same => different (Option.some.inj same).symm
      rw [mainCtx, mainCtx, if_neg elsewhere, if_neg elsewhere]
      rfl
    threadCtx := fun _ _ => rfl }
  apply nested.depart called home live rfl nofun frame
  · rfl
  · rfl
  · apply still_right nested.astray live
    simp [live.holds]
  · rfl
  · rfl
  · exact ⟨fun _ => home, nofun, nofun, nofun⟩

end Contexts

end Sylar.Scheduler
