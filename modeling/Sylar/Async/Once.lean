import Sylar.Async.View
import Sylar.Logic.Completion

namespace Sylar.AsyncSocketStream

open Logic

/-! Every request completes once: its view is a `Completion` whose token is the
non-null `scheduler` pointer. -/

/-- What a stage has to do with the completion: all of `doRsp` after a
successful compare-exchange of a non-null pointer is the winner's. -/
def Stage.claim : Stage → Claim
  | .check true => .won
  | .check false => .none
  | .testTimer => .won
  | .cancelTimer => .won
  | .clearTimer => .won
  | .testTimed => .won
  | .setTimeout => .won
  | .setTimeoutStr => .won
  | .schedule => .won
  | _ => .pending

def Role.claim : Role → Claim
  | .free => .none
  | .waiting => .pending
  | .on stage => stage.claim

namespace View

variable {A : Type} [DecidableEq A] {v w : View A}

def completion (v : View A) : Completion A where
  started := v.started
  listed := v.listed
  token := v.started && v.ctx.scheduler
  count := v.scheduled
  claim party := (v.role party).claim

theorem completion_goto (party : A) (role : Role) :
    (v.goto party role).completion =
      { v.completion with
        claim := Function.update v.completion.claim party role.claim } := by
  refine congrArg (fun claim => { v.completion with claim := claim }) ?_
  funext other
  exact Function.apply_update (fun _ => Role.claim) v.role party role other

theorem completion_goto_same {party : A} {role : Role}
    (same : role.claim = (v.role party).claim) :
    (v.goto party role).completion = v.completion := by
  rw [completion_goto, same]
  exact congrArg (fun claim => { v.completion with claim := claim })
    (Function.update_eq_self party _)

omit [DecidableEq A] in
theorem completion_ctx {ctx : Ctx} (same : ctx.scheduler = v.ctx.scheduler) :
    ({ v with ctx := ctx } : View A).completion = v.completion :=
  congrArg (fun token => { v.completion with token := v.started && token }) same

/-- Beside the completion: a live timer belongs to a request that was made, the
fiber is there until it is scheduled, and a null pointer stays null. -/
structure Sound (v : View A) : Prop where
  completion : v.completion.Sound
  timer : v.timer = true → v.started = true
  fiber : v.started = true → (v.ctx.fiber = true ↔ v.scheduled = 0)
  null : ∀ party, v.role party = .on (.compareExchange false) →
    v.ctx.scheduler = false

omit [DecidableEq A] in
theorem Sound.free (sound : v.Sound) (started : v.started = false) (party : A) :
    v.role party = .free ∨ v.role party = .on (.check false) := by
  have none := (sound.completion.unstarted started).2.2.2 party
  change (v.role party).claim = .none at none
  cases role : v.role party with
  | free => exact .inl rfl
  | waiting =>
      rw [role] at none
      cases none
  | on stage =>
      rw [role] at none
      cases stage with
      | check scd =>
          cases scd with
          | false => exact .inr rfl
          | true => cases none
      | _ => cases none

omit [DecidableEq A] in
theorem Sound.listed (sound : v.Sound) (listed : v.listed = true) :
    v.started = true := by
  cases started : v.started with
  | true => rfl
  | false =>
      have absent := (sound.completion.unstarted started).1
      exact absurd listed (by simp [show v.listed = false from absent])

omit [DecidableEq A] in
theorem Sound.fiber_of_won (sound : v.Sound) {party : A}
    (won : (v.role party).claim = .won) : v.ctx.fiber = true := by
  have started := sound.completion.started party (by simp [View.completion, won])
  exact (sound.fiber started).mpr (sound.completion.winner won).1

theorem completion_run (sound : v.Sound) {party : A} {stage : Stage}
    (place : v.role party = .on stage) :
    Completion.Step v.completion (v.run party stage).completion := by
  have claim : v.completion.claim party = stage.claim := by
    simp [View.completion, place, Role.claim]
  have started : stage.claim ≠ .none → v.started = true := by
    intro claimed
    exact sound.completion.started party (by rw [claim]; exact claimed)
  cases stage with
  | erase =>
      have same : (Role.on .setTimed).claim =
          (({ v with listed := false } : View A).role party).claim := by
        simp [place, Role.claim, Stage.claim]
      have unlisted : (v.run party .erase).completion =
          { v.completion with listed := false } := completion_goto_same same
      rw [unlisted]
      exact .unlist _ party claim
  | compareExchange scd =>
      have present := started (by simp [Stage.claim])
      cases pointer : v.ctx.scheduler with
      | true =>
          cases scd with
          | true =>
              have won : (v.run party (.compareExchange true)).completion =
                  { v.completion with
                    token := false
                    claim := Function.update v.completion.claim party .won } := by
                rw [View.run, completion_goto]
                simp [View.completion, View.effect, Ctx.run, pointer,
                  Role.resume, Role.claim, Stage.claim, View.started]
              rw [won]
              exact .win _ party claim (by simp [View.completion, present, pointer])
          | false =>
              rw [sound.null party place] at pointer
              cases pointer
      | false =>
          have absent : v.completion.token = false := by
            simp [View.completion, pointer]
          have lost : (v.run party (.compareExchange scd)).completion =
              { v.completion with
                claim := Function.update v.completion.claim party .none } := by
            rw [View.run, completion_goto]
            cases scd with
            | true =>
                simp [View.completion, View.effect, Ctx.run, pointer,
                  Role.resume, Role.claim, View.started]
            | false =>
                simp [View.completion, View.effect, Ctx.run, pointer,
                  Role.resume, Role.claim, Stage.claim, View.started]
          rw [lost]
          exact .drop _ party .none claim absent (by simp)
  | check scd =>
      have same : (v.run party (.check scd)).completion = v.completion := by
        refine completion_goto_same ?_
        cases scd with
        | true =>
            have won : (v.role party).claim = .won := by
              simp [place, Role.claim, Stage.claim]
            have fiber := sound.fiber_of_won won
            simp [View.effect, Ctx.run, fiber, Role.resume, Role.claim,
              Stage.claim, place]
        | false =>
            simp [View.effect, Ctx.run, Role.resume, Role.claim, Stage.claim,
              place]
      rw [same]
      exact .silent _
  | schedule =>
      have fired : (v.run party .schedule).completion =
          { v.completion with
            count := v.completion.count + 1
            claim := Function.update v.completion.claim party .none } := by
        rw [View.run, completion_goto]
        rfl
      rw [fired]
      exact .fire _ party .none claim (by simp)
  | testTimer =>
      have same : (v.run party .testTimer).completion = v.completion := by
        refine completion_goto_same ?_
        simp only [View.effect, Ctx.run, Role.resume, place]
        split <;> rfl
      rw [same]
      exact .silent _
  | testTimed =>
      have same : (v.run party .testTimed).completion = v.completion := by
        refine completion_goto_same ?_
        simp only [View.effect, Ctx.run, Role.resume, place]
        split <;> rfl
      rw [same]
      exact .silent _
  | _ =>
      refine Eq.subst (motive := Completion.Step _) ?_ (.silent _)
      refine ((completion_goto_same ?_).trans (completion_ctx rfl)).symm
      simp [Ctx.run, Role.resume, place, Role.claim, Stage.claim]

omit [DecidableEq A] in
theorem advance_cases (advanced : v.advance = some w) :
    (v.request = .addCtx ∧
      w = { v with request := .addTimer, listed := true, ctx := .new }) ∨
    ∃ request live timer, v.started = true ∧ request.made = true ∧
      w = { v with
        request := request
        timer := live
        ctx := { v.ctx with timer := timer } } := by
  unfold View.advance at advanced
  unfold View.started
  cases place : v.request with
  | addCtx =>
      simp only [place] at advanced
      cases advanced
      exact .inl ⟨rfl, rfl⟩
  | yieldToHold =>
      simp only [place] at advanced
      split at advanced
      · cases advanced
        exact .inr ⟨_, v.timer, v.ctx.timer, rfl, rfl, rfl⟩
      · cases advanced
  | finished result =>
      simp only [place] at advanced
      cases advanced
  | _ =>
      simp only [place] at advanced
      cases advanced
      exact .inr ⟨_, _, _, rfl, rfl, rfl⟩

theorem completion_advance (advanced : v.advance = some w) :
    Completion.Step v.completion w.completion := by
  obtain ⟨place, rfl⟩ | ⟨request, live, timer, before, made, rfl⟩ :=
    advance_cases advanced
  · refine .start _ ?_
    simp [View.completion, View.started, place, Request.made]
  · refine Eq.subst (motive := Completion.Step _) ?_ (.silent _)
    simp only [View.completion, before]
    simp [View.started, made]

theorem completion_step (sound : v.Sound) (step : View.Step sn allowed v w) :
    Completion.Step v.completion w.completion := by
  cases step with
  | silent => exact .silent _
  | advance _ advanced => exact completion_advance advanced
  | doRecv party rsp mine free listed =>
      rw [completion_goto]
      exact .take _ party false (sound.listed listed)
        (by simp [View.completion, free, Role.claim]) (by simp)
  | onTimeOut party free live =>
      rw [completion_goto]
      exact .take _ party v.listed (sound.timer live)
        (by simp [View.completion, free, Role.claim]) (fun listed => listed)
  | innerClose party free listed =>
      rw [completion_goto]
      exact .take _ party false (sound.listed listed)
        (by simp [View.completion, free, Role.claim]) (by simp)
  | take party waiting =>
      rw [completion_goto_same (by rw [waiting]; rfl)]
      exact .silent _
  | run party stage place _ => exact completion_run sound place

theorem run_started (party : A) (stage : Stage) :
    (v.run party stage).started = v.started := by
  cases stage <;> rfl

theorem run_timer {party : A} {stage : Stage}
    (live : (v.run party stage).timer = true) : v.timer = true := by
  cases stage with
  | cancelTimer => cases live
  | _ => exact live

theorem Ctx.run_fiber {ctx : Ctx} {stage : Stage} (other : stage ≠ .schedule) :
    (ctx.run stage).1.fiber = ctx.fiber := by
  cases stage with
  | schedule => exact absurd rfl other
  | compareExchange scd =>
      simp only [Ctx.run]
      split <;> rfl
  | _ => rfl

theorem run_scheduled {party : A} {stage : Stage} (other : stage ≠ .schedule) :
    (v.run party stage).scheduled = v.scheduled := by
  cases stage with
  | schedule => exact absurd rfl other
  | _ => rfl

theorem Ctx.run_scheduler {ctx : Ctx} (stage : Stage)
    (null : ctx.scheduler = false) : (ctx.run stage).1.scheduler = false := by
  cases stage with
  | compareExchange scd =>
      simp only [Ctx.run]
      split
      · rfl
      · exact null
  | _ => exact null

theorem Ctx.run_loaded {ctx : Ctx} {stage : Stage}
    (loaded : (ctx.run stage).2 = some (.compareExchange false)) :
    (ctx.run stage).1.scheduler = false := by
  cases stage with
  | load =>
      simp only [Ctx.run, Option.some.injEq, Stage.compareExchange.injEq] at loaded
      exact loaded
  | compareExchange scd =>
      simp only [Ctx.run] at loaded
      split at loaded <;> cases loaded
  | check scd =>
      simp only [Ctx.run] at loaded
      split at loaded <;> cases loaded
  | testTimer =>
      simp only [Ctx.run] at loaded
      split at loaded <;> cases loaded
  | testTimed =>
      simp only [Ctx.run] at loaded
      split at loaded <;> cases loaded
  | _ => cases loaded

/-- An activity that goes on without a compare-exchange leaves no stale null. -/
theorem Sound.null_goto (sound : v.Sound) {party : A} {role : Role}
    (other : role ≠ .on (.compareExchange false)) (any : A)
    (place : (v.goto party role).role any = .on (.compareExchange false)) :
    v.ctx.scheduler = false := by
  change Function.update v.role party role any = _ at place
  by_cases same : any = party
  · subst same
    exact absurd ((Function.update_self any role v.role).symm.trans place) other
  · exact sound.null any ((Function.update_of_ne same role v.role).symm.trans place)

theorem Sound.null_run (sound : v.Sound) {party : A} {stage : Stage} (any : A)
    (place : (v.run party stage).role any = .on (.compareExchange false)) :
    (v.run party stage).ctx.scheduler = false := by
  change (v.ctx.run stage).1.scheduler = false
  have roles : (v.effect stage).role = v.role := by cases stage <;> rfl
  by_cases same : any = party
  · subst same
    have resumed : Role.resume (v.ctx.run stage).2 = .on (.compareExchange false) :=
      (Function.update_self any _ (v.effect stage).role).symm.trans place
    cases next : (v.ctx.run stage).2 with
    | none =>
        rw [next] at resumed
        cases resumed
    | some following =>
        rw [next] at resumed
        cases resumed
        exact Ctx.run_loaded next
  · have before : v.role any = .on (.compareExchange false) := by
      rw [← roles]
      exact (Function.update_of_ne same _ (v.effect stage).role).symm.trans place
    exact Ctx.run_scheduler stage (sound.null any before)

theorem Sound.step (sound : v.Sound) (step : View.Step sn allowed v w) :
    w.Sound := by
  refine ⟨sound.completion.step (completion_step sound step), ?_, ?_, ?_⟩
  · intro live
    cases step with
    | advance _ advanced =>
        obtain ⟨-, rfl⟩ | ⟨request, live, timer, -, made, rfl⟩ :=
          advance_cases advanced
        · rfl
        · exact made
    | onTimeOut party free before => cases live
    | run party stage place _ =>
        rw [run_started]
        exact sound.timer (run_timer live)
    | _ => exact sound.timer live
  · intro started
    cases step with
    | advance _ advanced =>
        obtain ⟨place, rfl⟩ | ⟨request, live, timer, before, -, rfl⟩ :=
          advance_cases advanced
        · have fresh : v.started = false := by
            simp [View.started, place, Request.made]
          have count := (sound.completion.unstarted fresh).2.2.1
          exact ⟨fun _ => count, fun _ => rfl⟩
        · exact sound.fiber before
    | run party stage place _ =>
        by_cases last : stage = .schedule
        · subst last
          simp [View.run, View.goto, View.effect, Ctx.run]
        · rw [run_started] at started
          rw [run_scheduled last]
          change (v.ctx.run stage).1.fiber = true ↔ _
          rw [Ctx.run_fiber last]
          exact sound.fiber started
    | _ => exact sound.fiber started
  · intro any place
    cases step with
    | silent => exact sound.null any place
    | advance _ advanced =>
        obtain ⟨unmade, rfl⟩ | ⟨request, live, timer, -, -, rfl⟩ :=
          advance_cases advanced
        · have fresh : v.started = false := by
            simp [View.started, unmade, Request.made]
          obtain free | checked := sound.free fresh any
          · rw [show v.role any = _ from place] at free
            cases free
          · rw [show v.role any = _ from place] at checked
            cases checked
        · exact sound.null any place
    | run party stage _ _ => exact sound.null_run any place
    | _ => exact sound.null_goto (by simp) any place

end View

section

variable {R A : Type} [DecidableEq R] [DecidableEq A] {sn : R → UInt32}
  {s t : State R A}

omit [DecidableEq R] in
theorem Pc.targets_resume (r : R) (rest : List R) (next : Option Stage) :
    (Pc.resume r rest next).targets <:+ r :: rest := by
  cases next with
  | none => exact List.suffix_cons r rest
  | some next => exact List.suffix_refl _

omit [DecidableEq R] in
theorem State.WellFormed.goto (formed : s.WellFormed) {party : A} {pc : Pc R}
    (nodup : pc.targets.Nodup) : (s.goto party pc).WellFormed where
  ctxs := formed.ctxs
  targets other := by
    change (Function.update s.pc party pc other).targets.Nodup
    by_cases same : other = party
    · subst same
      rw [Function.update_self]
      exact nodup
    · rw [Function.update_of_ne same]
      exact formed.targets other

omit [DecidableEq A] in
theorem State.WellFormed.request (formed : s.WellFormed) {r : R}
    (taken : AsyncSocketStream.request sn s r = some t) : t.WellFormed := by
  unfold AsyncSocketStream.request at taken
  split at taken
  · cases taken
    exact ⟨addCtx_nodup formed.ctxs r, formed.targets⟩
  all_goals try split at taken
  all_goals
    cases taken
    try exact ⟨formed.ctxs, formed.targets⟩

omit [DecidableEq A] in
theorem State.WellFormed.effect (formed : s.WellFormed) (r : R) (stage : Stage) :
    (AsyncSocketStream.effect sn s r stage).WellFormed := by
  cases stage with
  | erase => exact ⟨eraseCtx_nodup formed.ctxs _, formed.targets⟩
  | _ => exact ⟨formed.ctxs, formed.targets⟩

theorem State.WellFormed.work (formed : s.WellFormed) {party : A}
    (taken : AsyncSocketStream.work sn s party = some t) : t.WellFormed := by
  have nodup := formed.targets party
  unfold AsyncSocketStream.work at taken
  split at taken
  · cases taken
  · rename_i r rest place
    cases taken
    rw [place] at nodup
    exact formed.goto nodup
  · rename_i r stage rest place
    cases taken
    rw [place] at nodup
    have changed : ((AsyncSocketStream.effect sn s r stage).setCtx r
        ((s.ctx r).run stage).1).WellFormed :=
      ⟨(formed.effect r stage).ctxs, (formed.effect r stage).targets⟩
    exact changed.goto (nodup.sublist (Pc.targets_resume r rest _).sublist)

theorem State.WellFormed.step (formed : s.WellFormed) {action : Action R A}
    (taken : AsyncSocketStream.step sn s action = some t) : t.WellFormed := by
  cases action with
  | request r => exact formed.request taken
  | doRecv party rsp =>
      simp only [AsyncSocketStream.step] at taken
      split at taken
      · cases taken
        unfold doRecv
        split
        · exact formed
        · have erased : ({ s with ctxs := eraseCtx sn s.ctxs rsp.sn } :
              State R A).WellFormed :=
            ⟨eraseCtx_nodup formed.ctxs _, formed.targets⟩
          exact erased.goto (by simp [Pc.targets])
      · cases taken
  | onTimeOut party r =>
      simp only [AsyncSocketStream.step] at taken
      split at taken
      · cases taken
        have expired : ({ s with timers := Function.update s.timers r false } :
            State R A).WellFormed := ⟨formed.ctxs, formed.targets⟩
        exact expired.goto (by simp [Pc.targets])
      · cases taken
  | innerClose party order =>
      simp only [AsyncSocketStream.step] at taken
      split at taken
      · rename_i allowed
        cases taken
        have emptied : ({ s with ctxs := [] } : State R A).WellFormed :=
          ⟨List.nodup_nil, formed.targets⟩
        exact emptied.goto (allowed.2.nodup_iff.mpr formed.ctxs)
      · cases taken
  | work party => exact formed.work taken

omit [DecidableEq R] [DecidableEq A] in
theorem Initial.wellFormed (initial : Initial s) : s.WellFormed where
  ctxs := by
    rw [initial.ctxs]
    exact List.nodup_nil
  targets party := by
    rw [initial.pc]
    exact List.nodup_nil

omit [DecidableEq A] in
theorem Initial.sound (initial : Initial s) (r : R) : (s.view r).Sound := by
  have started : (s.view r).started = false := by
    change (s.request r).made = false
    rw [initial.request]
    rfl
  have free (party : A) : (s.view r).role party = .free := by
    change (s.pc party).role r = .free
    rw [initial.pc]
    rfl
  refine ⟨.of_unstarted started ?_ ?_ (initial.scheduled r) ?_, ?_, ?_, ?_⟩
  · simp [View.completion, State.view, initial.ctxs]
  · simp [View.completion, started]
  · intro party
    simp [View.completion, free, Role.claim]
  · intro live
    rw [show (s.view r).timer = _ from initial.timers r] at live
    cases live
  · intro made
    rw [started] at made
    cases made
  · intro party place
    rw [free] at place
    cases place

theorem sound_run (distinct : Function.Injective sn)
    (reached : Reach Initial (StepOf (step sn)) s) :
    s.WellFormed ∧ ∀ r, (s.view r).Sound := by
  refine @Reach.invariant _ _ _ _
    (fun s : State R A => s.WellFormed ∧ ∀ r, (s.view r).Sound) ?_ ?_ _ reached
  · intro s initial
    exact ⟨initial.wellFormed, initial.sound⟩
  · rintro s action t ⟨formed, sound⟩ taken
    refine ⟨formed.step taken, ?_⟩
    intro r
    have moved : View.Step (sn r) (fun _ => True) (s.view r) (t.view r) :=
      view_step distinct formed (fun _ => trivial) taken
    exact (sound r).step moved

/-- What an activity still has to do calls `doRsp` on the request, or is the
part of `doRsp` that ends in `schedule`. -/
def Pc.completes (pc : Pc R) (r : R) : Prop :=
  (pc.role r).claim ≠ .none

/-- In every run with distinct sequence numbers the fiber of a request is
scheduled at most once, and a request that has left `m_ctxs` was completed or
is held by an activity that completes it. -/
theorem completes_once (distinct : Function.Injective sn)
    (reached : Reach Initial (StepOf (step sn)) s) (r : R) :
    s.scheduled r ≤ 1 ∧
      ((s.request r).made = true → r ∉ s.ctxs →
        s.scheduled r = 1 ∨ ∃ party, (s.pc party).completes r) := by
  obtain ⟨-, sound⟩ := sound_run distinct reached
  refine ⟨(sound r).completion.count_le, ?_⟩
  intro made absent
  have unlisted : (s.view r).completion.listed = false := by
    simpa [View.completion, State.view] using absent
  exact (sound r).completion.settled made unlisted

end

def fresh : State Bool Bool where
  ctxs := []
  ctx _ := .new
  request _ := .addCtx
  timers _ := false
  scheduled _ := 0
  pc _ := .idle

def number : Bool → UInt32
  | false => 7
  | true => 8

theorem number_injective : Function.Injective number := by
  intro r other same
  cases r <;> cases other <;> simp_all [number]

theorem fresh_initial : Initial fresh :=
  ⟨rfl, fun _ => rfl, fun _ => rfl, fun _ => rfl, fun _ => rfl⟩

/-- The stream is closed while the timer of the first request expires: the
timer completes it, `innerClose` gives up and goes on to the second one. -/
theorem completes_once_raced :
    ∃ s : State Bool Bool, s.scheduled false = 1 ∧ s.scheduled true = 0 ∧
      ∀ r, s.scheduled r ≤ 1 ∧
        ((s.request r).made = true → r ∉ s.ctxs →
          s.scheduled r = 1 ∨ ∃ party, (s.pc party).completes r) := by
  obtain ⟨s, ran, first, second⟩ : ∃ s, exec (step number) fresh
      [.request false, .request false, .request false, .request true,
        .innerClose true [false, true], .onTimeOut false false,
        .work false, .work false, .work true, .work true, .work true,
        .work true, .work false, .work false, .work true, .work false,
        .work false, .work false, .work false, .work false, .work false,
        .work false, .work false, .work true, .work true] = some s ∧
      s.scheduled false = 1 ∧ s.scheduled true = 0 := ⟨_, rfl, rfl, rfl⟩
  exact ⟨s, first, second, completes_once number_injective
    (reach_exec (.start fresh fresh_initial) ran)⟩

end Sylar.AsyncSocketStream
