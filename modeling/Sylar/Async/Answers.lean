import Sylar.Async.Outcome

namespace Sylar.AsyncSocketStream

open Logic

/-! A client whose server answers every request by a function of it: what comes
under the number of a request is its answer. -/

section Own

variable {R A : Type} [DecidableEq R] [DecidableEq A] {sn : R → UInt32}
  {b next : State R A} {answer : R → RockResponse}

/-- The response that a stage of `doRecv` has in hand. -/
def Stage.carried : Stage → Option RockResponse
  | .setResult rsp => some rsp
  | .setResultStr rsp => some rsp
  | .setResponse rsp => some rsp
  | _ => none

def ownCodes (rsp : RockResponse) : List Int32 :=
  [0, TIMEOUT, IO_ERROR, rsp.result.toInt32]

def ownTexts (rsp : RockResponse) : List Bytes :=
  [ascii "ok", ascii "timeout", ascii "io_error", rsp.resultStr]

/-- Each field comes from this answer, or was set at this end. -/
structure RockResult.Own (rsp : RockResponse) (found : RockResult) : Prop where
  code : found.result ∈ ownCodes rsp
  text : found.resultStr ∈ ownTexts rsp
  response : ∀ other, found.response = some other → other = rsp

/-- What a request has read so far. -/
def Request.Own (rsp : RockResponse) : Request → Prop
  | .readResultStr result => result ∈ ownCodes rsp
  | .readResponse result resultStr =>
      result ∈ ownCodes rsp ∧ resultStr ∈ ownTexts rsp
  | .finished found => found.Own rsp
  | _ => True

structure Own (answer : R → RockResponse) (b : State R A) : Prop where
  ctx : ∀ r, (b.request r).made = true → (b.ctx r).outcome.Own (answer r)
  carried : ∀ party r stage rest, b.pc party = .on r stage rest →
    ∀ rsp, stage.carried = some rsp → rsp = answer r
  read : ∀ r, (b.request r).Own (answer r)

theorem Ctx.new_own (rsp : RockResponse) : Ctx.new.outcome.Own rsp where
  code := List.mem_cons_self
  text := List.mem_cons_self
  response := by rintro other ⟨⟩

theorem Ctx.run_own {ctx : Ctx} {rsp : RockResponse} (own : ctx.outcome.Own rsp)
    {stage : Stage} (mine : ∀ other, stage.carried = some other → other = rsp) :
    (ctx.run stage).1.outcome.Own rsp := by
  obtain ⟨code, text, response⟩ := own
  cases stage with
  | setResult other =>
      obtain rfl := mine other rfl
      exact ⟨by simp [Ctx.run, Ctx.outcome, ownCodes], text, response⟩
  | setResultStr other =>
      obtain rfl := mine other rfl
      exact ⟨code, by simp [Ctx.run, Ctx.outcome, ownTexts], response⟩
  | setResponse other =>
      obtain rfl := mine other rfl
      refine ⟨code, text, ?_⟩
      intro found same
      cases same
      rfl
  | setIoError =>
      exact ⟨by simp [Ctx.run, Ctx.outcome, ownCodes], text, response⟩
  | setIoErrorStr =>
      exact ⟨code, by simp [Ctx.run, Ctx.outcome, ownTexts], response⟩
  | setTimeout =>
      exact ⟨by simp [Ctx.run, Ctx.outcome, ownCodes], text, response⟩
  | setTimeoutStr =>
      exact ⟨code, by simp [Ctx.run, Ctx.outcome, ownTexts], response⟩
  | compareExchange scd =>
      simp only [Ctx.run]
      split
      · exact ⟨code, text, response⟩
      · exact ⟨code, text, response⟩
  | _ => exact ⟨code, text, response⟩

/-- The response in hand is handed on to the next stage. -/
theorem Ctx.run_carried {ctx : Ctx} {stage next : Stage}
    (goes : (ctx.run stage).2 = some next) {rsp : RockResponse}
    (carried : next.carried = some rsp) : stage.carried = some rsp := by
  cases stage with
  | setResult other =>
      cases goes
      exact carried
  | setResultStr other =>
      cases goes
      exact carried
  | compareExchange scd =>
      simp only [Ctx.run] at goes
      split at goes
      · cases goes
        cases carried
      · cases goes
  | check scd =>
      simp only [Ctx.run] at goes
      split at goes
      · cases goes
      · cases goes
        cases carried
  | testTimer =>
      simp only [Ctx.run] at goes
      split at goes
      · cases goes
        cases carried
      · cases goes
        cases carried
  | testTimed =>
      simp only [Ctx.run] at goes
      split at goes
      · cases goes
        cases carried
      · cases goes
        cases carried
  | schedule => cases goes
  | _ =>
      cases goes
      cases carried

/-- A response that is read is the answer to every request of its number. -/
def Answered (sn : R → UInt32) (answer : R → RockResponse) :
    Action R A → Prop
  | .doRecv _ rsp => ∀ r, sn r = rsp.sn → rsp = answer r
  | _ => True

variable {action : Action R A}

omit [DecidableEq R] in
theorem Own.goto (own : Own answer b) {party : A} {pc : Pc R}
    (mine : ∀ r stage rest, pc = .on r stage rest →
      ∀ rsp, stage.carried = some rsp → rsp = answer r) :
    Own answer (b.goto party pc) where
  ctx := own.ctx
  carried other r stage rest place := by
    change Function.update b.pc party pc other = _ at place
    rcases eq_or_ne other party with rfl | different
    · rw [Function.update_self] at place
      exact mine r stage rest place
    · rw [Function.update_of_ne different] at place
      exact own.carried other r stage rest place
  read := own.read

omit [DecidableEq A] in
theorem Own.setRequest (own : Own answer b) {r : R} {next : Request}
    (read : next.Own (answer r))
    (ctx : next.made = true → (b.ctx r).outcome.Own (answer r)) :
    Own answer (b.setRequest r next) where
  ctx other made := by
    change (Function.update b.request r next other).made = true at made
    change (b.ctx other).outcome.Own (answer other)
    rcases eq_or_ne other r with rfl | different
    · rw [Function.update_self] at made
      exact ctx made
    · rw [Function.update_of_ne different] at made
      exact own.ctx other made
  carried := own.carried
  read other := by
    change (Function.update b.request r next other).Own (answer other)
    rcases eq_or_ne other r with rfl | different
    · rw [Function.update_self]
      exact read
    · rw [Function.update_of_ne different]
      exact own.read other

omit [DecidableEq A] in
theorem Own.setCtx (own : Own answer b) {r : R} {ctx : Ctx}
    (mine : (b.request r).made = true → ctx.outcome.Own (answer r)) :
    Own answer (b.setCtx r ctx) where
  ctx other made := by
    change ((Function.update b.ctx r ctx) other).outcome.Own (answer other)
    rcases eq_or_ne other r with rfl | different
    · rw [Function.update_self]
      exact mine made
    · rw [Function.update_of_ne different]
      exact own.ctx other made
  carried := own.carried
  read := own.read

omit [DecidableEq R] [DecidableEq A] in
theorem Own.of_eq (own : Own answer b) (ctx : next.ctx = b.ctx)
    (pc : next.pc = b.pc) (request : next.request = b.request) :
    Own answer next where
  ctx := by rw [ctx, request]; exact own.ctx
  carried := by rw [pc]; exact own.carried
  read := by rw [request]; exact own.read

omit [DecidableEq A] in
theorem Own.advance (own : Own answer b) {r : R}
    (taken : request sn b r = some next) : Own answer next := by
  have made : b.request r ≠ .addCtx → (b.request r).made = true := by
    intro place
    cases here : b.request r <;> first | rfl | exact absurd here place
  have read := own.read r
  cases place : b.request r with
  | addCtx =>
      simp only [request, place] at taken
      cases taken
      have added : Own answer { b with ctxs := addCtx sn b.ctxs r } :=
        own.of_eq rfl rfl rfl
      refine (added.setCtx fun _ => Ctx.new_own _).setRequest trivial fun _ => ?_
      rw [show ((({ b with ctxs := addCtx sn b.ctxs r } : State R A).setCtx r
        .new).ctx r) = .new from Function.update_self _ _ _]
      exact Ctx.new_own _
  | finished found =>
      simp only [request, place] at taken
      cases taken
  | yieldToHold =>
      simp only [request, place] at taken
      split at taken
      · cases taken
        exact own.setRequest trivial fun _ => own.ctx r (made (by simp [place]))
      · cases taken
  | setTimer =>
      simp only [request, place] at taken
      cases taken
      have mine := own.ctx r (made (by simp [place]))
      have armed : Own answer
          (b.setCtx r { b.ctx r with timer := true }) := own.setCtx fun _ => mine
      refine armed.setRequest trivial fun _ => ?_
      rw [show (b.setCtx r { b.ctx r with timer := true }).ctx r = _ from
        Function.update_self _ _ _]
      exact mine
  | readResult =>
      simp only [request, place] at taken
      cases taken
      have mine := own.ctx r (made (by simp [place]))
      exact own.setRequest mine.code fun _ => mine
  | readResultStr result =>
      simp only [request, place] at taken
      cases taken
      have mine := own.ctx r (made (by simp [place]))
      rw [place] at read
      exact own.setRequest ⟨read, mine.text⟩ fun _ => mine
  | readResponse result resultStr =>
      simp only [request, place] at taken
      cases taken
      have mine := own.ctx r (made (by simp [place]))
      rw [place] at read
      exact own.setRequest ⟨read.1, read.2, mine.response⟩ fun _ => mine
  | addTimer =>
      simp only [request, place] at taken
      cases taken
      have mine := own.ctx r (made (by simp [place]))
      have armed : Own answer
          { b with timers := Function.update b.timers r true } :=
        own.of_eq rfl rfl rfl
      exact armed.setRequest trivial fun _ => mine
  | enqueue =>
      simp only [request, place] at taken
      cases taken
      exact own.setRequest trivial fun _ => own.ctx r (made (by simp [place]))

theorem Own.step (own : Own answer b) (answered : Answered sn answer action)
    (taken : step sn b action = some next) : Own answer next := by
  cases action with
  | request r => exact own.advance taken
  | doRecv party rsp =>
      simp only [AsyncSocketStream.step] at taken
      split at taken
      · cases taken
        unfold doRecv
        split
        · exact own
        · rename_i r found
          have taken : Own answer
              { b with ctxs := eraseCtx sn b.ctxs rsp.sn } :=
            own.of_eq rfl rfl rfl
          refine taken.goto ?_
          rintro _ _ _ ⟨⟩ _ ⟨⟩
          exact answered r (getCtx_eq_some found).2
      · cases taken
  | onTimeOut party r =>
      simp only [AsyncSocketStream.step] at taken
      split at taken
      · cases taken
        have fired : Own answer
            { b with timers := Function.update b.timers r false } :=
          own.of_eq rfl rfl rfl
        refine fired.goto ?_
        rintro _ _ _ ⟨⟩ _ ⟨⟩
      · cases taken
  | innerClose party order =>
      simp only [AsyncSocketStream.step] at taken
      split at taken
      · cases taken
        have swapped : Own answer { b with ctxs := [] } := own.of_eq rfl rfl rfl
        refine swapped.goto ?_
        rintro _ _ _ ⟨⟩
      · cases taken
  | work party =>
      simp only [AsyncSocketStream.step, work] at taken
      split at taken
      · cases taken
      · cases taken
        refine Own.goto own ?_
        rintro _ _ _ ⟨⟩ _ ⟨⟩
      · rename_i r stage rest place
        cases taken
        have mine := own.carried party r stage rest place
        have effected : Own answer (effect sn b r stage) := by
          cases stage <;> exact own.of_eq rfl rfl rfl
        refine Own.goto (effected.setCtx ?_) ?_
        · intro made
          refine Ctx.run_own (own.ctx r ?_) mine
          cases stage <;> exact made
        · intro other later others same rsp carried
          cases goes : ((b.ctx r).run stage).2 with
          | none =>
              rw [goes] at same
              cases same
          | some following =>
              rw [goes] at same
              cases same
              exact mine rsp (Ctx.run_carried goes carried)

omit [DecidableEq R] [DecidableEq A] in
theorem Initial.own (initial : AsyncSocketStream.Initial b) : Own answer b where
  ctx r made := by
    rw [initial.request] at made
    cases made
  carried party r stage rest place := by
    rw [initial.pc] at place
    cases place
  read r := by
    rw [initial.request]
    trivial

end Own

/-! Runs in which no timer fires and the stream is not closed: a request is
scheduled once its response is there. -/

section Served

variable {R A : Type} [DecidableEq R] [DecidableEq A] {sn : R → UInt32}
  {b next : State R A}

def Calm : Action R A → Prop
  | .onTimeOut _ _ => False
  | .innerClose _ _ => False
  | _ => True

/-- A stage that a response leads to. -/
def Stage.Serves (ctx : Ctx) : Stage → Prop
  | .setResult _ => True
  | .setResultStr _ => True
  | .setResponse _ => True
  | .check false => True
  | .erase => False
  | .setTimed => False
  | .setIoError => False
  | .setIoErrorStr => False
  | _ => ctx.response.isSome = true

def Request.Served (scheduled : Nat) : Request → Prop
  | .readResult => 0 < scheduled
  | .readResultStr _ => 0 < scheduled
  | .readResponse _ _ => 0 < scheduled
  | .finished found => found.response.isSome = true
  | _ => True

structure Served (b : State R A) : Prop where
  stage : ∀ party r stage rest, b.pc party = .on r stage rest →
    rest = [] ∧ stage.Serves (b.ctx r)
  loop : ∀ party rest, b.pc party = .loop rest → rest = []
  scheduled : ∀ r, 0 < b.scheduled r → (b.ctx r).response.isSome = true
  read : ∀ r, (b.request r).Served (b.scheduled r)

theorem Stage.Serves.mono {ctx after : Ctx} {stage : Stage}
    (serves : stage.Serves ctx)
    (kept : ctx.response.isSome = true → after.response.isSome = true) :
    stage.Serves after := by
  cases stage with
  | check scd =>
      cases scd with
      | false => trivial
      | true => exact kept serves
  | setResult rsp => trivial
  | setResultStr rsp => trivial
  | setResponse rsp => trivial
  | erase => exact serves
  | setTimed => exact serves
  | setIoError => exact serves
  | setIoErrorStr => exact serves
  | _ => exact kept serves

theorem Ctx.run_response {ctx : Ctx} (stage : Stage)
    (present : ctx.response.isSome = true) :
    (ctx.run stage).1.response.isSome = true := by
  cases stage with
  | setResponse rsp => rfl
  | compareExchange scd =>
      simp only [Ctx.run]
      split
      · exact present
      · exact present
  | _ => exact present

theorem Ctx.run_serves {ctx : Ctx} {stage following : Stage}
    (serves : stage.Serves ctx) (goes : (ctx.run stage).2 = some following) :
    following.Serves (ctx.run stage).1 := by
  cases stage with
  | setResult rsp =>
      cases goes
      trivial
  | setResultStr rsp =>
      cases goes
      trivial
  | setResponse rsp =>
      cases goes
      rfl
  | erase => cases serves
  | setTimed => cases serves
  | setIoError => cases serves
  | setIoErrorStr => cases serves
  | compareExchange scd =>
      simp only [Ctx.run] at goes ⊢
      split at goes
      · rename_i same
        cases goes
        rw [if_pos same]
        cases scd with
        | false => trivial
        | true => exact serves
      · cases goes
  | check scd =>
      simp only [Ctx.run] at goes
      split at goes
      · cases goes
      · rename_i present
        cases goes
        cases scd with
        | false => simp at present
        | true => exact serves
  | testTimer =>
      simp only [Ctx.run] at goes
      split at goes
      · cases goes
        exact serves
      · cases goes
        exact serves
  | testTimed =>
      simp only [Ctx.run] at goes
      split at goes
      · cases goes
        exact serves
      · cases goes
        exact serves
  | schedule => cases goes
  | _ =>
      cases goes
      exact serves

omit [DecidableEq R] [DecidableEq A] in
theorem Served.of_eq (served : Served b) (ctx : next.ctx = b.ctx)
    (pc : next.pc = b.pc) (scheduled : next.scheduled = b.scheduled)
    (request : next.request = b.request) : Served next where
  stage := by rw [ctx, pc]; exact served.stage
  loop := by rw [pc]; exact served.loop
  scheduled := by rw [ctx, scheduled]; exact served.scheduled
  read := by rw [scheduled, request]; exact served.read

omit [DecidableEq R] in
theorem Served.goto (served : Served b) {party : A} {pc : Pc R}
    (stage : ∀ r stage rest, pc = .on r stage rest →
      rest = [] ∧ stage.Serves (b.ctx r))
    (loop : ∀ rest, pc = .loop rest → rest = []) :
    Served (b.goto party pc) where
  stage other r here rest place := by
    change Function.update b.pc party pc other = _ at place
    rcases eq_or_ne other party with rfl | different
    · rw [Function.update_self] at place
      exact stage r here rest place
    · rw [Function.update_of_ne different] at place
      exact served.stage other r here rest place
  loop other rest place := by
    change Function.update b.pc party pc other = _ at place
    rcases eq_or_ne other party with rfl | different
    · rw [Function.update_self] at place
      exact loop rest place
    · rw [Function.update_of_ne different] at place
      exact served.loop other rest place
  scheduled := served.scheduled
  read := served.read

omit [DecidableEq A] in
theorem Served.setRequest (served : Served b) {r : R} {following : Request}
    (read : following.Served (b.scheduled r)) :
    Served (b.setRequest r following) where
  stage := served.stage
  loop := served.loop
  scheduled := served.scheduled
  read other := by
    change (Function.update b.request r following other).Served _
    rcases eq_or_ne other r with rfl | different
    · rw [Function.update_self]
      exact read
    · rw [Function.update_of_ne different]
      exact served.read other

omit [DecidableEq A] in
theorem Served.setCtx (served : Served b) {r : R} {ctx : Ctx}
    (kept : (b.ctx r).response.isSome = true → ctx.response.isSome = true) :
    Served (b.setCtx r ctx) where
  stage party other stage rest place := by
    obtain ⟨last, serves⟩ := served.stage party other stage rest place
    refine ⟨last, ?_⟩
    change stage.Serves (Function.update b.ctx r ctx other)
    rcases eq_or_ne other r with rfl | different
    · rw [Function.update_self]
      exact serves.mono kept
    · rw [Function.update_of_ne different]
      exact serves
  loop := served.loop
  scheduled other more := by
    change (Function.update b.ctx r ctx other).response.isSome = true
    rcases eq_or_ne other r with rfl | different
    · rw [Function.update_self]
      exact kept (served.scheduled other more)
    · rw [Function.update_of_ne different]
      exact served.scheduled other more
  read := served.read

omit [DecidableEq A] in
/-- A request that is not made yet has nobody at work on it. -/
theorem Served.renew (served : Served b) {r : R} (sound : (b.view r).Sound)
    (unmade : b.request r = .addCtx) : Served (b.setCtx r .new) := by
  have unstarted : (b.view r).started = false := by
    change (b.request r).made = false
    rw [unmade]
    rfl
  refine ⟨?_, served.loop, ?_, served.read⟩
  · intro party other stage rest place
    obtain ⟨last, serves⟩ := served.stage party other stage rest place
    refine ⟨last, ?_⟩
    change stage.Serves (Function.update b.ctx r .new other)
    rcases eq_or_ne other r with rfl | different
    · have role : (b.view other).role party = .on stage := by
        have here : b.pc party = .on other stage rest := place
        change (b.pc party).role other = _
        rw [here]
        exact if_pos rfl
      rcases sound.free unstarted party with free | checks
      · rw [role] at free
        cases free
      · rw [role] at checks
        cases checks
        trivial
    · rw [Function.update_of_ne different]
      exact serves
  · intro other more
    change (Function.update b.ctx r .new other).response.isSome = true
    rcases eq_or_ne other r with rfl | different
    · have zero := (sound.completion.unstarted unstarted).2.2.1
      change b.scheduled other = 0 at zero
      change 0 < b.scheduled other at more
      omega
    · rw [Function.update_of_ne different]
      exact served.scheduled other more

omit [DecidableEq A] in
theorem Served.advance (served : Served b) {r : R} (sound : (b.view r).Sound)
    (taken : request sn b r = some next) : Served next := by
  have read := served.read r
  cases place : b.request r with
  | addCtx =>
      simp only [request, place] at taken
      cases taken
      have added : Served { b with ctxs := addCtx sn b.ctxs r } :=
        served.of_eq rfl rfl rfl rfl
      have renewed := served.renew sound place
      have both : Served (({ b with
          ctxs := addCtx sn b.ctxs r } : State R A).setCtx r .new) :=
        renewed.of_eq rfl rfl rfl rfl
      exact both.setRequest trivial
  | addTimer =>
      simp only [request, place] at taken
      cases taken
      have armed : Served { b with timers := Function.update b.timers r true } :=
        served.of_eq rfl rfl rfl rfl
      exact armed.setRequest trivial
  | setTimer =>
      simp only [request, place] at taken
      cases taken
      have armed : Served (b.setCtx r { b.ctx r with timer := true }) :=
        served.setCtx fun present => present
      exact armed.setRequest trivial
  | enqueue =>
      simp only [request, place] at taken
      cases taken
      exact served.setRequest trivial
  | yieldToHold =>
      simp only [request, place] at taken
      split at taken
      · rename_i woken
        cases taken
        exact served.setRequest woken
      · cases taken
  | readResult =>
      rw [place] at read
      simp only [request, place] at taken
      cases taken
      exact served.setRequest read
  | readResultStr result =>
      rw [place] at read
      simp only [request, place] at taken
      cases taken
      exact served.setRequest read
  | readResponse result resultStr =>
      rw [place] at read
      simp only [request, place] at taken
      cases taken
      exact served.setRequest (served.scheduled r read)
  | finished found =>
      simp only [request, place] at taken
      cases taken

theorem Served.work (served : Served b) {party : A}
    (taken : work sn b party = some next) : Served next := by
  unfold AsyncSocketStream.work at taken
  split at taken
  · cases taken
  · rename_i r rest place
    cases served.loop party (r :: rest) place
  · rename_i r stage rest place
    cases taken
    obtain ⟨rfl, serves⟩ := served.stage party r stage rest place
    have effected : Served (effect sn b r stage) := by
      cases stage with
      | schedule =>
          refine ⟨served.stage, served.loop, ?_, ?_⟩
          · intro other more
            change 0 < Function.update b.scheduled r (b.scheduled r + 1) other
              at more
            rcases eq_or_ne other r with rfl | different
            · exact serves
            · rw [Function.update_of_ne different] at more
              exact served.scheduled other more
          · intro other
            have read := served.read other
            change (b.request other).Served
              (Function.update b.scheduled r (b.scheduled r + 1) other)
            rcases eq_or_ne other r with rfl | different
            · rw [Function.update_self]
              cases here : b.request other with
              | finished found =>
                  rw [here] at read
                  exact read
              | readResult => exact Nat.succ_pos _
              | readResultStr result => exact Nat.succ_pos _
              | readResponse result resultStr => exact Nat.succ_pos _
              | _ => trivial
            · rw [Function.update_of_ne different]
              exact read
      | _ => exact served.of_eq rfl rfl rfl rfl
    have ran : Served ((effect sn b r stage).setCtx r ((b.ctx r).run stage).1) := by
      refine effected.setCtx ?_
      cases stage <;> exact Ctx.run_response _
    refine ran.goto ?_ ?_
    · intro other following later same
      cases goes : ((b.ctx r).run stage).2 with
      | none =>
          rw [goes] at same
          cases same
      | some after =>
          rw [goes] at same
          cases same
          refine ⟨rfl, ?_⟩
          rw [show ((effect sn b r stage).setCtx r _).ctx r = _ from
            Function.update_self _ _ _]
          exact Ctx.run_serves serves goes
    · intro later same
      cases goes : ((b.ctx r).run stage).2 with
      | none =>
          rw [goes] at same
          cases same
          rfl
      | some after =>
          rw [goes] at same
          cases same

theorem Served.step (served : Served b) (sound : ∀ r, (b.view r).Sound)
    {action : Action R A} (calm : Calm action)
    (taken : step sn b action = some next) : Served next := by
  cases action with
  | request r => exact served.advance (sound r) taken
  | doRecv party rsp =>
      simp only [AsyncSocketStream.step] at taken
      split at taken
      · cases taken
        unfold doRecv
        split
        · exact served
        · have fewer : Served { b with ctxs := eraseCtx sn b.ctxs rsp.sn } :=
            served.of_eq rfl rfl rfl rfl
          refine fewer.goto ?_ ?_
          · rintro _ _ _ ⟨⟩
            exact ⟨rfl, trivial⟩
          · rintro _ ⟨⟩
      · cases taken
  | onTimeOut party r => cases calm
  | innerClose party order => cases calm
  | work party => exact served.work taken

omit [DecidableEq R] [DecidableEq A] in
theorem Initial.served (initial : AsyncSocketStream.Initial b) : Served b where
  stage party r stage rest place := by
    rw [initial.pc] at place
    cases place
  loop party rest place := by
    rw [initial.pc] at place
    cases place
    rfl
  scheduled r more := by
    rw [initial.scheduled] at more
    cases more
  read r := by
    rw [initial.request]
    trivial

end Served

end Sylar.AsyncSocketStream
