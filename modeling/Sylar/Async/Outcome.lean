import Mathlib.Data.Fintype.Basic
import Sylar.Async.Once

namespace Sylar.AsyncSocketStream

open Logic

/-! The outcome of a request. Its fields are assigned outside the
compare-exchange, so what it reads is consistent only in the runs whose timer
callbacks come at no bad moment. -/

/-- The three outcomes of a request with the number `sn`. -/
inductive RockResult.Consistent (sn : UInt32) : RockResult → Prop
  | response (rsp : RockResponse) (mine : rsp.sn = sn) :
      Consistent sn ⟨rsp.result.toInt32, rsp.resultStr, some rsp⟩
  | timeout : Consistent sn ⟨TIMEOUT, ascii "timeout", none⟩
  | ioError : Consistent sn ⟨IO_ERROR, ascii "io_error", none⟩

def Ctx.outcome (ctx : Ctx) : RockResult :=
  ⟨ctx.result.toInt32, ctx.resultStr, ctx.response⟩

/-- Before an assignment of `doRecv` or `innerClose`. -/
def Stage.assigning : Stage → Bool
  | .setResult _ => true
  | .setResultStr _ => true
  | .setResponse _ => true
  | .setIoError => true
  | .setIoErrorStr => true
  | _ => false

def Stage.undecided : Stage → Bool
  | .load => true
  | .compareExchange _ => true
  | .check _ => true
  | .testTimer => true
  | .cancelTimer => true
  | .clearTimer => true
  | .testTimed => true
  | _ => false

namespace Role

def assigning : Role → Bool
  | .free => false
  | .waiting => true
  | .on stage => stage.assigning

def undecided : Role → Bool
  | .on stage => stage.undecided
  | _ => false

/-- Not concerned, or in `onTimeOut` before the assignment of `timed`. -/
def apart : Role → Bool
  | .free => true
  | .on .erase => true
  | .on .setTimed => true
  | _ => false

theorem apart.not_assigning {role : Role} (apart : role.apart = true) :
    role.assigning = false := by
  cases role with
  | free => rfl
  | waiting => cases apart
  | on stage => cases stage <;> first | rfl | cases apart

/-- How far the activity that took the context has come, and what it has made
of the fields. -/
def Progress (sn : UInt32) (ctx : Ctx) : Role → Prop
  | .waiting => ctx.scheduler = true ∧ ctx.response = none
  | .on (.setResult rsp) =>
      ctx.scheduler = true ∧ ctx.response = none ∧ rsp.sn = sn
  | .on (.setResultStr rsp) =>
      ctx.scheduler = true ∧ ctx.response = none ∧ rsp.sn = sn ∧
        ctx.result = rsp.result
  | .on (.setResponse rsp) =>
      ctx.scheduler = true ∧ rsp.sn = sn ∧ ctx.result = rsp.result ∧
        ctx.resultStr = rsp.resultStr
  | .on .setIoError => ctx.scheduler = true ∧ ctx.response = none
  | .on .setIoErrorStr =>
      ctx.scheduler = true ∧ ctx.response = none ∧
        ctx.result = IO_ERROR.toUInt32
  | .on .load => ctx.scheduler = true ∧ ctx.outcome.Consistent sn
  | .on (.compareExchange scd) =>
      scd = true ∧ ctx.scheduler = true ∧ ctx.outcome.Consistent sn
  | .on (.check scd) => scd = true ∧ ctx.outcome.Consistent sn
  | .on .testTimer => ctx.outcome.Consistent sn
  | .on .cancelTimer => ctx.outcome.Consistent sn
  | .on .clearTimer => ctx.outcome.Consistent sn
  | .on .testTimed => ctx.outcome.Consistent sn
  | _ => False

end Role

namespace View

variable {A : Type} [DecidableEq A] {v w : View A} {sn : UInt32}

/-- A moment at which `onTimeOut` may assign `timed`: no assignment of another
activity is to come, and none that holds a response has yet to test it. -/
def Quiet (v : View A) : Prop :=
  ∀ party, (v.role party).assigning = false ∧
    (v.ctx.response = none ∨ (v.role party).undecided = false)

instance [Fintype A] (v : View A) : Decidable v.Quiet :=
  inferInstanceAs (Decidable (∀ party, (v.role party).assigning = false ∧
    (v.ctx.response = none ∨ (v.role party).undecided = false)))

/-- Nobody has taken the context out of `m_ctxs`, or only `onTimeOut` has. -/
structure Unclaimed (v : View A) : Prop where
  scheduled : v.scheduled = 0
  apart : ∀ party, (v.role party).apart = true
  erased : ∀ party, v.role party = .on .setTimed → v.listed = false
  pointer : v.started = true → v.ctx.scheduler = true
  timed : v.started = true → v.ctx.timed = false
  response : v.started = true → v.ctx.response = none

/-- One activity took the context, and `onTimeOut` has not interfered. -/
structure Held (sn : UInt32) (v : View A) (holder : A) : Prop where
  started : v.started = true
  listed : v.listed = false
  scheduled : v.scheduled = 0
  timed : v.ctx.timed = false
  progress : (v.role holder).Progress sn v.ctx
  others : ∀ party, party ≠ holder → (v.role party).apart = true

/-- `timed` is set and nothing but a timeout can be the outcome. -/
structure Expired (v : View A) : Prop where
  started : v.started = true
  listed : v.listed = false
  scheduled : v.scheduled = 0
  timed : v.ctx.timed = true
  response : v.ctx.response = none
  quiet : ∀ party, (v.role party).assigning = false
  result : ∀ party, v.role party = .on .setTimeoutStr →
    v.ctx.result = TIMEOUT.toUInt32
  unready : ∀ party, v.role party ≠ .on .schedule

/-- The outcome is there and nobody will change it. -/
structure Decided (sn : UInt32) (v : View A) : Prop where
  started : v.started = true
  listed : v.listed = false
  pointer : v.ctx.scheduler = false
  consistent : v.ctx.outcome.Consistent sn
  quiet : ∀ party, (v.role party).assigning = false
  last : ∀ party, (v.role party).claim = .won → v.role party = .on .schedule

inductive Phase (sn : UInt32) (v : View A) : Prop
  | unclaimed (unclaimed : v.Unclaimed)
  | held (holder : A) (held : v.Held sn holder)
  | expired (expired : v.Expired)
  | decided (decided : v.Decided sn)

theorem forall_goto (property : A → Role → Prop) {party : A} {role : Role}
    (here : property party role)
    (others : ∀ other, other ≠ party → property other (v.role other)) :
    ∀ other, property other ((v.goto party role).role other) := by
  intro other
  change property other (Function.update v.role party role other)
  by_cases same : other = party
  · subst same
    rw [Function.update_self]
    exact here
  · rw [Function.update_of_ne same]
    exact others other same

theorem forall_run (property : A → Role → Prop) {party : A} {stage : Stage}
    (here : property party (.resume (v.ctx.run stage).2))
    (others : ∀ other, other ≠ party → property other (v.role other)) :
    ∀ other, property other ((v.run party stage).role other) := by
  have roles : (v.effect stage).role = v.role := by cases stage <;> rfl
  refine forall_goto property here ?_
  intro other apart
  change property other ((v.effect stage).role other)
  rw [roles]
  exact others other apart

theorem run_listed {stage : Stage} (unlisted : v.listed = false) (party : A) :
    (v.run party stage).listed = false := by
  cases stage with
  | erase => rfl
  | _ => exact unlisted

omit [DecidableEq A] in
theorem started_advance (advanced : v.advance = some w) (started : v.started = true) :
    ∃ request live timer, request.made = true ∧
      w = { v with
        request := request
        timer := live
        ctx := { v.ctx with timer := timer } } := by
  obtain ⟨place, -⟩ | ⟨request, live, timer, -, made, rfl⟩ :=
    advance_cases advanced
  · rw [View.started, place] at started
    cases started
  · exact ⟨request, live, timer, made, rfl⟩

/-! ### Once decided -/

omit [DecidableEq A] in
theorem Decided.access (decided : v.Decided sn) {party : A} {stage : Stage}
    (place : v.role party = .on stage) :
    (v.ctx.run stage).1.outcome = v.ctx.outcome ∧
      (Role.resume (v.ctx.run stage).2).assigning = false ∧
      (Role.resume (v.ctx.run stage).2).claim ≠ .won := by
  have quiet := decided.quiet party
  have last := decided.last party
  have pointer := decided.pointer
  rw [place] at quiet last
  cases stage with
  | erase => exact ⟨rfl, rfl, by simp [Ctx.run, Role.resume, Role.claim, Stage.claim]⟩
  | setTimed => exact ⟨rfl, rfl, by simp [Ctx.run, Role.resume, Role.claim, Stage.claim]⟩
  | load => exact ⟨rfl, rfl, by simp [Ctx.run, Role.resume, Role.claim, Stage.claim]⟩
  | compareExchange scd =>
      cases scd with
      | true => simp [Ctx.run, pointer, Role.resume, Role.assigning, Role.claim]
      | false =>
          simp [Ctx.run, pointer, Role.resume, Role.assigning, Role.claim,
            Stage.assigning, Stage.claim, Ctx.outcome]
  | check scd =>
      cases scd with
      | true => cases last rfl
      | false => simp [Ctx.run, Role.resume, Role.assigning, Role.claim]
  | schedule => simp [Ctx.run, Role.resume, Role.assigning, Role.claim, Ctx.outcome]
  | _ => first | cases last rfl | cases quiet

theorem Decided.goto (decided : v.Decided sn) {party : A} {role : Role}
    (quiet : role.assigning = false) (unwon : role.claim ≠ .won) :
    (v.goto party role).Decided sn where
  started := decided.started
  listed := decided.listed
  pointer := decided.pointer
  consistent := decided.consistent
  quiet := forall_goto (fun _ role => role.assigning = false) quiet
    fun other _ => decided.quiet other
  last := forall_goto (fun _ role => role.claim = .won → role = .on .schedule)
    (fun won => absurd won unwon) fun other _ => decided.last other

theorem Decided.run (decided : v.Decided sn) {party : A} {stage : Stage}
    (place : v.role party = .on stage) : (v.run party stage).Decided sn := by
  obtain ⟨outcome, quiet, unwon⟩ := decided.access place
  refine ⟨?_, run_listed decided.listed party, ?_, ?_, ?_, ?_⟩
  · rw [run_started]
    exact decided.started
  · exact Ctx.run_scheduler stage decided.pointer
  · change (v.ctx.run stage).1.outcome.Consistent sn
    rw [outcome]
    exact decided.consistent
  · exact forall_run (fun _ role => role.assigning = false) quiet
      fun other _ => decided.quiet other
  · exact forall_run (fun _ role => role.claim = .won → role = .on .schedule)
      (fun won => absurd won unwon) fun other _ => decided.last other

theorem Decided.step (decided : v.Decided sn) (step : View.Step sn Quiet v w) :
    w.Decided sn ∧ w.ctx.outcome = v.ctx.outcome ∧ v.scheduled ≤ w.scheduled := by
  cases step with
  | silent => exact ⟨decided, rfl, le_rfl⟩
  | advance _ advanced =>
      obtain ⟨request, live, timer, made, rfl⟩ :=
        started_advance advanced decided.started
      exact ⟨⟨made, decided.listed, decided.pointer, decided.consistent,
        decided.quiet, decided.last⟩, rfl, le_rfl⟩
  | doRecv party rsp mine free listed =>
      rw [decided.listed] at listed
      cases listed
  | onTimeOut party free live =>
      have still : ({ v with timer := false } : View A).Decided sn :=
        ⟨decided.started, decided.listed, decided.pointer, decided.consistent,
          decided.quiet, decided.last⟩
      exact ⟨still.goto rfl (by simp [Role.claim, Stage.claim]), rfl, le_rfl⟩
  | innerClose party free listed =>
      rw [decided.listed] at listed
      cases listed
  | take party waiting =>
      have quiet := decided.quiet party
      rw [waiting] at quiet
      cases quiet
  | run party stage place permitted =>
      refine ⟨decided.run place, (decided.access place).1, ?_⟩
      cases stage with
      | schedule => exact Nat.le_succ _
      | _ => exact le_rfl

/-! ### Once timed -/

theorem Expired.goto (expired : v.Expired) {party : A} {role : Role}
    (quiet : role.assigning = false) (text : role ≠ .on .setTimeoutStr)
    (unready : role ≠ .on .schedule) : (v.goto party role).Expired where
  started := expired.started
  listed := expired.listed
  scheduled := expired.scheduled
  timed := expired.timed
  response := expired.response
  quiet := forall_goto (fun _ role => role.assigning = false) quiet
    fun other _ => expired.quiet other
  result := forall_goto
    (fun _ role => role = .on .setTimeoutStr → v.ctx.result = TIMEOUT.toUInt32)
    (fun same => absurd same text) fun other _ => expired.result other
  unready := forall_goto (fun _ role => role ≠ .on .schedule) unready
    fun other _ => expired.unready other

omit [DecidableEq A] in
theorem Expired.touch (expired : v.Expired) (listed live : Bool) (ctx : Ctx)
    (unlisted : listed = false) (timed : ctx.timed = true)
    (response : ctx.response = none) (result : ctx.result = v.ctx.result) :
    ({ v with listed := listed, timer := live, ctx := ctx } : View A).Expired :=
  ⟨expired.started, unlisted, expired.scheduled, timed, response, expired.quiet,
    fun party place => result.trans (expired.result party place),
    expired.unready⟩

omit [DecidableEq A] in
theorem Sound.pointer_of_won (sound : v.Sound) {party : A}
    (won : (v.role party).claim = .won) : v.ctx.scheduler = false := by
  have started := sound.completion.started party (by simp [View.completion, won])
  have token := (sound.completion.winner won).2.1
  change (v.started && v.ctx.scheduler) = false at token
  rw [show v.started = true from started] at token
  exact token

omit [DecidableEq A] in
theorem Sound.winner (sound : v.Sound) {party other : A}
    (won : (v.role party).claim = .won) (also : (v.role other).claim = .won) :
    other = party :=
  (sound.completion.winner won).2.2 other also

theorem Expired.run (sound : v.Sound) (expired : v.Expired) {party : A}
    {stage : Stage} (place : v.role party = .on stage) :
    (v.run party stage).Phase sn := by
  have quiet := expired.quiet party
  have timed := expired.timed
  rw [place] at quiet
  cases stage with
  | schedule => exact absurd place (expired.unready party)
  | setTimeoutStr =>
      have won : (v.role party).claim = .won := by
        rw [place]
        rfl
      refine .decided ⟨expired.started, expired.listed, sound.pointer_of_won won,
        ?_, ?_, ?_⟩
      · have outcome : (v.run party .setTimeoutStr).ctx.outcome =
            ⟨TIMEOUT, ascii "timeout", none⟩ := by
          simp [View.run, View.goto, View.effect, Ctx.run, Ctx.outcome,
            expired.result party place, expired.response]
        rw [outcome]
        exact .timeout
      · exact forall_run (fun _ role => role.assigning = false) rfl
          fun other _ => expired.quiet other
      · refine forall_run (fun _ role => role.claim = .won → role = .on .schedule)
          (fun _ => rfl) ?_
        intro other apart also
        exact absurd (sound.winner won also) apart
  | setTimeout =>
      refine .expired ⟨expired.started, expired.listed, expired.scheduled, timed,
        expired.response, ?_, fun _ _ => rfl, ?_⟩
      · exact forall_run (fun _ role => role.assigning = false) rfl
          fun other _ => expired.quiet other
      · exact forall_run (fun _ role => role ≠ .on .schedule)
          (by simp [Ctx.run, Role.resume]) fun other _ => expired.unready other
  | compareExchange scd =>
      have same : (v.ctx.run (.compareExchange scd)).1.timed = true ∧
          (v.ctx.run (.compareExchange scd)).1.response = none ∧
          (v.ctx.run (.compareExchange scd)).1.result = v.ctx.result := by
        simp only [Ctx.run]
        split <;> exact ⟨timed, expired.response, rfl⟩
      have next : (v.ctx.run (.compareExchange scd)).2 = none ∨
          (v.ctx.run (.compareExchange scd)).2 = some (.check scd) := by
        simp only [Ctx.run]
        split
        · exact .inr rfl
        · exact .inl rfl
      have touched := expired.touch v.listed v.timer _ expired.listed same.1
        same.2.1 same.2.2
      refine .expired (touched.goto ?_ ?_ ?_)
      all_goals
        obtain gone | kept := next
        · simp [gone, Role.resume, Role.assigning]
        · simp [kept, Role.resume, Role.assigning, Stage.assigning]
  | check scd =>
      refine .expired (expired.goto ?_ ?_ ?_)
      all_goals
        simp only [Ctx.run]
        split <;> simp [Role.resume, Role.assigning, Stage.assigning]
  | testTimer =>
      refine .expired (expired.goto ?_ ?_ ?_)
      all_goals
        simp only [Ctx.run]
        split <;> simp [Role.resume, Role.assigning, Stage.assigning]
  | testTimed =>
      refine .expired (expired.goto ?_ ?_ ?_)
      all_goals simp [Ctx.run, timed, Role.resume, Role.assigning, Stage.assigning]
  | erase =>
      have touched := expired.touch false v.timer v.ctx rfl timed
        expired.response rfl
      exact .expired (touched.goto rfl (by simp [Ctx.run, Role.resume])
        (by simp [Ctx.run, Role.resume]))
  | cancelTimer =>
      have touched := expired.touch v.listed false v.ctx expired.listed timed
        expired.response rfl
      exact .expired (touched.goto rfl (by simp [Ctx.run, Role.resume])
        (by simp [Ctx.run, Role.resume]))
  | setTimed =>
      have touched := expired.touch v.listed v.timer (v.ctx.run .setTimed).1
        expired.listed rfl expired.response rfl
      exact .expired (touched.goto rfl (by simp [Ctx.run, Role.resume])
        (by simp [Ctx.run, Role.resume]))
  | clearTimer =>
      have touched := expired.touch v.listed v.timer (v.ctx.run .clearTimer).1
        expired.listed timed expired.response rfl
      exact .expired (touched.goto rfl (by simp [Ctx.run, Role.resume])
        (by simp [Ctx.run, Role.resume]))
  | load =>
      exact .expired (expired.goto rfl (by simp [Ctx.run, Role.resume])
        (by simp [Ctx.run, Role.resume]))
  | _ => cases quiet

theorem Expired.step (sound : v.Sound) (expired : v.Expired)
    (step : View.Step sn Quiet v w) : w.Phase sn := by
  cases step with
  | silent => exact .expired expired
  | advance _ advanced =>
      obtain ⟨request, live, timer, made, rfl⟩ :=
        started_advance advanced expired.started
      exact .expired ⟨made, expired.listed, expired.scheduled, expired.timed,
        expired.response, expired.quiet, expired.result, expired.unready⟩
  | doRecv party rsp mine free listed =>
      rw [expired.listed] at listed
      cases listed
  | onTimeOut party free live =>
      have touched := expired.touch v.listed false v.ctx expired.listed
        expired.timed expired.response rfl
      exact .expired (touched.goto rfl (by simp) (by simp))
  | innerClose party free listed =>
      rw [expired.listed] at listed
      cases listed
  | take party waiting =>
      have quiet := expired.quiet party
      rw [waiting] at quiet
      cases quiet
  | run party stage place permitted => exact expired.run sound place

/-! ### While one activity holds the context -/

theorem Held.move {holder : A} (held : v.Held sn holder) (live : Bool) {ctx : Ctx}
    {role : Role} (timed : ctx.timed = false) (progress : role.Progress sn ctx) :
    (({ v with timer := live, ctx := ctx } : View A).goto holder role).Held sn
      holder where
  started := held.started
  listed := held.listed
  scheduled := held.scheduled
  timed := timed
  progress := by
    change (Function.update v.role holder role holder).Progress sn ctx
    rw [Function.update_self]
    exact progress
  others := forall_goto (fun other role => other ≠ holder → role.apart = true)
    (fun other => absurd rfl other) fun other _ => held.others other

theorem Held.goto {holder party : A} (held : v.Held sn holder)
    (other : party ≠ holder) (live : Bool) {role : Role}
    (apart : role.apart = true) :
    (({ v with timer := live } : View A).goto party role).Held sn holder where
  started := held.started
  listed := held.listed
  scheduled := held.scheduled
  timed := held.timed
  progress := by
    change (Function.update v.role party role holder).Progress sn v.ctx
    rw [Function.update_of_ne other.symm]
    exact held.progress
  others := forall_goto (fun other role => other ≠ holder → role.apart = true)
    (fun _ => apart) fun other _ => held.others other

theorem Held.run (sound : v.Sound) {holder : A} (held : v.Held sn holder)
    {stage : Stage} (place : v.role holder = .on stage) :
    (v.run holder stage).Phase sn := by
  have progress := held.progress
  have timed := held.timed
  rw [place] at progress
  cases stage with
  | setResult rsp =>
      obtain ⟨pointer, response, mine⟩ := progress
      exact .held holder (held.move v.timer timed ⟨pointer, response, mine, rfl⟩)
  | setResultStr rsp =>
      obtain ⟨pointer, response, mine, result⟩ := progress
      exact .held holder (held.move v.timer timed ⟨pointer, mine, result, rfl⟩)
  | setResponse rsp =>
      obtain ⟨pointer, mine, result, text⟩ := progress
      have outcome : (v.ctx.run (.setResponse rsp)).1.outcome =
          ⟨rsp.result.toInt32, rsp.resultStr, some rsp⟩ := by
        simp [Ctx.run, Ctx.outcome, result, text]
      refine .held holder (held.move v.timer timed ⟨pointer, ?_⟩)
      rw [outcome]
      exact .response rsp mine
  | setIoError =>
      obtain ⟨pointer, response⟩ := progress
      exact .held holder (held.move v.timer timed ⟨pointer, response, rfl⟩)
  | setIoErrorStr =>
      obtain ⟨pointer, response, result⟩ := progress
      have outcome : (v.ctx.run .setIoErrorStr).1.outcome =
          ⟨IO_ERROR, ascii "io_error", none⟩ := by
        simp [Ctx.run, Ctx.outcome, response, result]
      refine .held holder (held.move v.timer timed ⟨pointer, ?_⟩)
      rw [outcome]
      exact .ioError
  | load =>
      obtain ⟨pointer, consistent⟩ := progress
      exact .held holder (held.move v.timer timed ⟨pointer, pointer, consistent⟩)
  | compareExchange scd =>
      obtain ⟨rfl, pointer, consistent⟩ := progress
      have won : v.ctx.run (.compareExchange true) =
          ({ v.ctx with scheduler := false }, some (.check true)) := by
        simp [Ctx.run, pointer]
      unfold View.run
      rw [won]
      exact .held holder (held.move v.timer timed ⟨rfl, consistent⟩)
  | check scd =>
      obtain ⟨rfl, consistent⟩ := progress
      have fiber := sound.fiber_of_won (by rw [place]; rfl)
      have goes : v.ctx.run (.check true) = (v.ctx, some .testTimer) := by
        simp [Ctx.run, fiber]
      unfold View.run
      rw [goes]
      exact .held holder (held.move v.timer timed consistent)
  | testTimer =>
      unfold View.run
      simp only [Ctx.run]
      split
      · exact .held holder (held.move v.timer timed progress)
      · exact .held holder (held.move v.timer timed progress)
  | cancelTimer => exact .held holder (held.move false timed progress)
  | clearTimer => exact .held holder (held.move v.timer timed progress)
  | testTimed =>
      have won : (v.role holder).claim = .won := by
        rw [place]
        rfl
      have ready : v.ctx.run .testTimed = (v.ctx, some .schedule) := by
        simp [Ctx.run, timed]
      have next : Role.resume (v.ctx.run .testTimed).2 = .on .schedule := by
        rw [ready]
        rfl
      refine .decided ⟨held.started, held.listed, sound.pointer_of_won won,
        progress, ?_, ?_⟩
      · refine forall_run (fun _ role => role.assigning = false) ?_ ?_
        · rw [next]
          rfl
        · intro other apart
          exact Role.apart.not_assigning (held.others other apart)
      · refine forall_run (fun _ role => role.claim = .won → role = .on .schedule)
          (fun _ => next) ?_
        intro other apart also
        exact absurd (sound.winner won also) apart
  | _ => cases progress

theorem Role.Progress.timer {role : Role} {ctx : Ctx}
    (progress : role.Progress sn ctx) (timer : Bool) :
    role.Progress sn { ctx with timer := timer } := by
  cases role with
  | on stage => cases stage <;> exact progress
  | _ => exact progress

theorem Role.Progress.undecided {role : Role} {ctx : Ctx}
    (progress : role.Progress sn ctx) (quiet : role.assigning = false) :
    role.undecided = true := by
  cases role with
  | free => cases progress
  | waiting => cases quiet
  | on stage =>
      cases stage <;> first | rfl | exact False.elim progress | cases quiet

theorem Role.Progress.not_apart {role : Role} {ctx : Ctx}
    (progress : role.Progress sn ctx) : role.apart = false := by
  cases role with
  | free => cases progress
  | waiting => rfl
  | on stage => cases stage <;> first | rfl | exact False.elim progress

/-- `onTimeOut` assigns `timed` between the assignments of the activity that
took the context and its test. -/
theorem Held.setTimed {holder party : A} (held : v.Held sn holder)
    (other : party ≠ holder) (quiet : v.Quiet) :
    (v.run party .setTimed).Phase sn := by
  obtain ⟨silent, response⟩ := quiet holder
  have undecided := Role.Progress.undecided held.progress silent
  rw [undecided] at response
  have apart : ∀ any, (v.role any).undecided = true ∨ (v.role any).apart = true := by
    intro any
    by_cases same : any = holder
    · subst same
      exact .inl undecided
    · exact .inr (held.others any same)
  refine .expired ⟨held.started, held.listed, held.scheduled, rfl, ?_, ?_, ?_, ?_⟩
  · exact response.resolve_right (by simp)
  · exact forall_run (fun _ role => role.assigning = false) rfl
      fun any _ => (quiet any).1
  · refine forall_run
      (fun _ role => role = .on .setTimeoutStr → v.ctx.result = TIMEOUT.toUInt32)
      (by simp [Ctx.run, Role.resume]) ?_
    intro any _ place
    have either := apart any
    rw [place] at either
    simp [Role.undecided, Role.apart, Stage.undecided] at either
  · refine forall_run (fun _ role => role ≠ .on .schedule)
      (by simp [Ctx.run, Role.resume]) ?_
    intro any _ place
    have either := apart any
    rw [place] at either
    simp [Role.undecided, Role.apart, Stage.undecided] at either

theorem Held.step (sound : v.Sound) {holder : A} (held : v.Held sn holder)
    (step : View.Step sn Quiet v w) : w.Phase sn := by
  have ne_of_apart (party : A) (apart : (v.role party).apart = true) :
      party ≠ holder := by
    rintro rfl
    rw [Role.Progress.not_apart held.progress] at apart
    cases apart
  cases step with
  | silent => exact .held holder held
  | advance _ advanced =>
      obtain ⟨request, live, timer, made, rfl⟩ :=
        started_advance advanced held.started
      exact .held holder ⟨made, held.listed, held.scheduled, held.timed,
        Role.Progress.timer held.progress timer, held.others⟩
  | doRecv party rsp mine free listed =>
      rw [held.listed] at listed
      cases listed
  | onTimeOut party free live =>
      have other := ne_of_apart party (by rw [free]; rfl)
      exact .held holder (held.goto other false rfl)
  | innerClose party free listed =>
      rw [held.listed] at listed
      cases listed
  | take party waiting =>
      by_cases same : party = holder
      · subst same
        have progress := held.progress
        rw [waiting] at progress
        exact .held party (held.move v.timer held.timed progress)
      · have apart := held.others party same
        rw [waiting] at apart
        cases apart
  | run party stage place permitted =>
      by_cases same : party = holder
      · subst same
        exact held.run sound place
      · have apart := held.others party same
        rw [place] at apart
        cases stage with
        | erase =>
            have unlisted : v.run party .erase = v.goto party (.on .setTimed) := by
              change ({ v with listed := false } : View A).goto party _ = _
              rw [← held.listed]
              rfl
            rw [unlisted]
            exact .held holder (held.goto same v.timer rfl)
        | setTimed => exact held.setTimed same (permitted rfl)
        | _ => cases apart

/-! ### Before anybody holds it -/

theorem Unclaimed.step (sound : v.Sound) (unclaimed : v.Unclaimed)
    (step : View.Step sn Quiet v w) : w.Phase sn := by
  cases step with
  | silent => exact .unclaimed unclaimed
  | advance _ advanced =>
      obtain ⟨place, rfl⟩ | ⟨request, live, timer, before, made, rfl⟩ :=
        advance_cases advanced
      · have fresh : v.started = false := by
          rw [View.started, place]
          rfl
        refine .unclaimed ⟨unclaimed.scheduled, unclaimed.apart, ?_, fun _ => rfl,
          fun _ => rfl, fun _ => rfl⟩
        intro party timing
        obtain free | checked := sound.free fresh party
        · rw [show v.role party = _ from timing] at free
          cases free
        · rw [show v.role party = _ from timing] at checked
          cases checked
      · exact .unclaimed ⟨unclaimed.scheduled, unclaimed.apart, unclaimed.erased,
          fun _ => unclaimed.pointer before, fun _ => unclaimed.timed before,
          fun _ => unclaimed.response before⟩
  | doRecv party rsp mine free listed =>
      have started := sound.listed listed
      refine .held party ⟨started, rfl, unclaimed.scheduled,
        unclaimed.timed started, ?_, ?_⟩
      · change (Function.update v.role party _ party).Progress sn v.ctx
        rw [Function.update_self]
        exact ⟨unclaimed.pointer started, unclaimed.response started, mine⟩
      · exact forall_goto (fun other role => other ≠ party → role.apart = true)
          (fun other => absurd rfl other) fun other _ _ => unclaimed.apart other
  | onTimeOut party free live =>
      refine .unclaimed ⟨unclaimed.scheduled, ?_, ?_, unclaimed.pointer,
        unclaimed.timed, unclaimed.response⟩
      · exact forall_goto (fun _ role => role.apart = true) rfl
          fun other _ => unclaimed.apart other
      · exact forall_goto (fun _ role => role = .on .setTimed → v.listed = false)
          (by simp) fun other _ => unclaimed.erased other
  | innerClose party free listed =>
      have started := sound.listed listed
      refine .held party ⟨started, rfl, unclaimed.scheduled,
        unclaimed.timed started, ?_, ?_⟩
      · change (Function.update v.role party _ party).Progress sn v.ctx
        rw [Function.update_self]
        exact ⟨unclaimed.pointer started, unclaimed.response started⟩
      · exact forall_goto (fun other role => other ≠ party → role.apart = true)
          (fun other => absurd rfl other) fun other _ _ => unclaimed.apart other
  | take party waiting =>
      have apart := unclaimed.apart party
      rw [waiting] at apart
      cases apart
  | run party stage place permitted =>
      have apart := unclaimed.apart party
      rw [place] at apart
      have started : stage.claim ≠ .none → v.started = true := by
        intro claimed
        refine sound.completion.started party ?_
        simpa [View.completion, place, Role.claim] using claimed
      cases stage with
      | erase =>
          refine .unclaimed ⟨unclaimed.scheduled, ?_, fun _ _ => rfl,
            unclaimed.pointer, unclaimed.timed, unclaimed.response⟩
          exact forall_run (fun _ role => role.apart = true) rfl
            fun other _ => unclaimed.apart other
      | setTimed =>
          have made := started (by simp [Stage.claim])
          refine .expired ⟨made, unclaimed.erased party place,
            unclaimed.scheduled, rfl, unclaimed.response made, ?_, ?_, ?_⟩
          · exact forall_run (fun _ role => role.assigning = false) rfl
              fun other _ => Role.apart.not_assigning (unclaimed.apart other)
          · refine forall_run (fun _ role => role = .on .setTimeoutStr →
              v.ctx.result = TIMEOUT.toUInt32) (by simp [Ctx.run, Role.resume]) ?_
            intro other _ place
            have apart := unclaimed.apart other
            rw [place] at apart
            cases apart
          · refine forall_run (fun _ role => role ≠ .on .schedule)
              (by simp [Ctx.run, Role.resume]) ?_
            intro other _ place
            have apart := unclaimed.apart other
            rw [place] at apart
            cases apart
      | _ => cases apart

theorem Phase.step (sound : v.Sound) (phase : v.Phase sn)
    (step : View.Step sn Quiet v w) : w.Phase sn := by
  cases phase with
  | unclaimed unclaimed => exact unclaimed.step sound step
  | held holder held => exact held.step sound step
  | expired expired => exact expired.step sound step
  | decided decided => exact .decided (decided.step step).1

omit [DecidableEq A] in
theorem Phase.decided_of_scheduled (phase : v.Phase sn)
    (scheduled : 0 < v.scheduled) : v.Decided sn := by
  cases phase with
  | unclaimed unclaimed => exact absurd unclaimed.scheduled scheduled.ne'
  | held holder held => exact absurd held.scheduled scheduled.ne'
  | expired expired => exact absurd expired.scheduled scheduled.ne'
  | decided decided => exact decided

/-- What the request has read so far is what the context still holds. -/
def Reads (sn : UInt32) (v : View A) : Prop :=
  match v.request with
  | .readResult => 0 < v.scheduled
  | .readResultStr result => 0 < v.scheduled ∧ result = v.ctx.outcome.result
  | .readResponse result resultStr =>
      0 < v.scheduled ∧ result = v.ctx.outcome.result ∧
        resultStr = v.ctx.outcome.resultStr
  | .finished result => result.Consistent sn
  | _ => True

omit [DecidableEq A] in
theorem Reads.keep (reads : v.Reads sn) (same : w.request = v.request)
    (kept : 0 < v.scheduled →
      w.ctx.outcome = v.ctx.outcome ∧ v.scheduled ≤ w.scheduled) :
    w.Reads sn := by
  unfold Reads at reads ⊢
  rw [same]
  cases place : v.request with
  | readResult =>
      rw [place] at reads
      exact reads.trans_le (kept reads).2
  | readResultStr result =>
      rw [place] at reads
      obtain ⟨outcome, more⟩ := kept reads.1
      rw [outcome]
      exact ⟨reads.1.trans_le more, reads.2⟩
  | readResponse result resultStr =>
      rw [place] at reads
      obtain ⟨outcome, more⟩ := kept reads.1
      rw [outcome]
      exact ⟨reads.1.trans_le more, reads.2⟩
  | finished result =>
      rw [place] at reads
      exact reads
  | _ => trivial

omit [DecidableEq A] in
theorem Reads.advance (phase : v.Phase sn) (reads : v.Reads sn)
    (advanced : v.advance = some w) : w.Reads sn := by
  unfold View.advance at advanced
  unfold Reads at reads
  cases place : v.request with
  | yieldToHold =>
      simp only [place] at advanced
      split at advanced
      · rename_i woken
        cases advanced
        exact woken
      · cases advanced
  | readResult =>
      simp only [place] at advanced reads
      cases advanced
      exact ⟨reads, rfl⟩
  | readResultStr result =>
      simp only [place] at advanced reads
      cases advanced
      exact ⟨reads.1, reads.2, rfl⟩
  | readResponse result resultStr =>
      simp only [place] at advanced reads
      cases advanced
      obtain ⟨scheduled, rfl, rfl⟩ := reads
      exact (phase.decided_of_scheduled scheduled).consistent
  | finished result =>
      simp only [place] at advanced
      cases advanced
  | _ =>
      simp only [place] at advanced
      cases advanced
      trivial

theorem Reads.step (phase : v.Phase sn) (reads : v.Reads sn)
    (step : View.Step sn Quiet v w) : w.Reads sn := by
  have kept : 0 < v.scheduled →
      w.ctx.outcome = v.ctx.outcome ∧ v.scheduled ≤ w.scheduled := by
    intro scheduled
    exact ((phase.decided_of_scheduled scheduled).step step).2
  cases step with
  | advance _ advanced => exact reads.advance phase advanced
  | run party stage place permitted =>
      refine reads.keep ?_ kept
      cases stage <;> rfl
  | _ => exact reads.keep rfl kept

end View

section

variable {R A : Type} [DecidableEq R] [DecidableEq A] {sn : R → UInt32}
  {s t : State R A}

/-- The request whose `timed` is assigned next. -/
def Pc.timing : Pc R → Option R
  | .on r .setTimed _ => some r
  | _ => none

/-- `onTimeOut` assigns `timed` of a context only when no `doRecv` is between
taking that context and the test of `timed` in its `doRsp`, and no `innerClose`
has taken it without having assigned its two fields. -/
def Undisturbed (s : State R A) : Action R A → Prop
  | .work party => ∀ r ∈ (s.pc party).timing, (s.view r).Quiet
  | _ => True

instance [Fintype A] (s : State R A) :
    (action : Action R A) → Decidable (Undisturbed s action)
  | .work party =>
      inferInstanceAs (Decidable (∀ r ∈ (s.pc party).timing, (s.view r).Quiet))
  | .request _ => inferInstanceAs (Decidable True)
  | .doRecv _ _ => inferInstanceAs (Decidable True)
  | .onTimeOut _ _ => inferInstanceAs (Decidable True)
  | .innerClose _ _ => inferInstanceAs (Decidable True)

omit [DecidableEq A] in
theorem Undisturbed.quiet {action : Action R A} {r : R}
    (undisturbed : Undisturbed s action) (sets : setsTimed s r action) :
    (s.view r).Quiet := by
  obtain ⟨party, rest, rfl, place⟩ := sets
  refine undisturbed r ?_
  rw [place]
  rfl

omit [DecidableEq A] in
theorem Initial.unclaimed (initial : Initial s) (r : R) : (s.view r).Unclaimed := by
  have unmade : (s.view r).started = false := by
    change (s.request r).made = false
    rw [initial.request]
    rfl
  have free (party : A) : (s.view r).role party = .free := by
    change (s.pc party).role r = .free
    rw [initial.pc]
    rfl
  refine ⟨initial.scheduled r, ?_, ?_, ?_, ?_, ?_⟩
  · intro party
    rw [free]
    rfl
  · intro party place
    rw [free] at place
    cases place
  all_goals
    intro started
    rw [unmade] at started
    cases started

theorem outcome_run (distinct : Function.Injective sn)
    (reached : Reach Initial (StepWhen (step sn) Undisturbed) s) :
    s.WellFormed ∧ ∀ r, (s.view r).Sound ∧ (s.view r).Phase (sn r) ∧
      (s.view r).Reads (sn r) := by
  refine @Reach.invariant _ _ _ _ (fun s : State R A => s.WellFormed ∧
    ∀ r, (s.view r).Sound ∧ (s.view r).Phase (sn r) ∧ (s.view r).Reads (sn r))
    ?_ ?_ _ reached
  · intro s initial
    refine ⟨initial.wellFormed, ?_⟩
    intro r
    refine ⟨initial.sound r, .unclaimed (initial.unclaimed r), ?_⟩
    unfold View.Reads
    rw [show (s.view r).request = _ from initial.request r]
    trivial
  · rintro s action t ⟨formed, holds⟩ ⟨undisturbed, taken⟩
    refine ⟨formed.step taken, ?_⟩
    intro r
    obtain ⟨sound, phase, reads⟩ := holds r
    have moved : View.Step (sn r) View.Quiet (s.view r) (t.view r) :=
      view_step distinct formed (fun sets => undisturbed.quiet sets) taken
    exact ⟨sound.step moved, phase.step sound moved, reads.step phase moved⟩

/-- In every run whose timer callbacks come at quiet moments, a request that has
resumed returns a consistent result. -/
theorem outcome_consistent (distinct : Function.Injective sn)
    (reached : Reach Initial (StepWhen (step sn) Undisturbed) s) {r : R}
    {result : RockResult} (finished : s.request r = .finished result) :
    result.Consistent (sn r) := by
  obtain ⟨-, holds⟩ := outcome_run distinct reached
  have reads := (holds r).2.2
  unfold View.Reads at reads
  rw [show (s.view r).request = _ from finished] at reads
  exact reads

theorem RockResult.Consistent.of_response {number : UInt32} {result : RockResult}
    (consistent : result.Consistent number) {rsp : RockResponse}
    (response : result.response = some rsp) :
    result.result = rsp.result.toInt32 := by
  cases consistent with
  | response other mine =>
      cases response
      rfl
  | timeout => cases response
  | ioError => cases response

end

def answer : RockResponse where
  sn := 7
  cmd := 1
  result := 0
  resultStr := ascii "ok"
  body := []

/-- The first request is answered and the second one times out. -/
theorem outcome_consistent_both :
    ∃ s : State Bool Bool,
      s.request false = .finished ⟨0, ascii "ok", some answer⟩ ∧
      s.request true = .finished ⟨TIMEOUT, ascii "timeout", none⟩ ∧
      ∀ r result, s.request r = .finished result →
        result.Consistent (number r) := by
  obtain ⟨s, ran, first, second⟩ : ∃ s,
      exec (guarded (step number) Undisturbed) fresh
        [.request false, .request false, .request false, .request false,
          .request true, .request true, .request true, .request true,
          .doRecv false answer, .onTimeOut true true, .work false, .work true,
          .work false, .work true, .work false, .work true, .work false,
          .work true, .work false, .work true, .work false, .work true,
          .work false, .work true, .work false, .work true, .work false,
          .work true, .work false, .work true, .work false, .work true,
          .work true, .request false, .request false, .request false, .request false,
          .request true, .request true, .request true, .request true] = some s ∧
      s.request false = .finished ⟨0, ascii "ok", some answer⟩ ∧
      s.request true = .finished ⟨TIMEOUT, ascii "timeout", none⟩ :=
    ⟨_, rfl, rfl, rfl⟩
  exact ⟨s, first, second, fun _ _ finished => outcome_consistent number_injective
    (reach_guarded (.start fresh fresh_initial) ran) finished⟩

/-- The timer expires while `doRecv` holds the context: the request resumes with
a timeout and the response that came. -/
theorem outcome_mixed :
    ∃ s : State Bool Bool, Reach Initial (StepOf (step number)) s ∧
      ∃ result, s.request false = .finished result ∧
        ¬ result.Consistent (number false) := by
  obtain ⟨s, ran, finished⟩ : ∃ s, exec (step number) fresh
      [.request false, .request false, .request false, .request false,
        .doRecv false answer, .work false, .work false, .work false,
        .onTimeOut true false, .work true, .work true, .work false,
        .work false, .work false, .work false, .work false, .work false,
        .work false, .work false, .work false, .work false,
        .request false, .request false, .request false, .request false] =
        some s ∧
      s.request false = .finished ⟨TIMEOUT, ascii "timeout", some answer⟩ :=
    ⟨_, rfl, rfl⟩
  refine ⟨s, reach_exec (.start fresh fresh_initial) ran, _, finished, ?_⟩
  intro consistent
  have same := consistent.of_response rfl
  exact absurd same (by decide)

end Sylar.AsyncSocketStream
