import Mathlib.Data.List.Perm.Basic
import Sylar.Logic.Reach
import Sylar.Rock.Message

namespace Sylar.AsyncSocketStream

open Logic

/-! The requests of one `RockStream`, which found it connected, and the
activities that complete them: `doRecv` with the `doRsp` of `doRead`, the timer
callback `onTimeOut`, and `innerClose`. A step is one assignment, one test of a
shared field, or one section under `m_mutex`. -/

def ascii (text : String) : Bytes :=
  text.toList.map fun char => char.toNat.toUInt8

def TIMEOUT : Int32 := -1

def IO_ERROR : Int32 := -2

/-- The fields of a `RockCtx` that change after it was published; its `sn` does
not. A pointer is kept as whether it is non-null. -/
structure Ctx where
  result : UInt32
  timed : Bool
  scheduler : Bool
  fiber : Bool
  timer : Bool
  resultStr : Bytes
  response : Option RockResponse
  deriving DecidableEq, Repr

/-- `Ctx::Ctx`, then the assignments of `RockStream::request`. -/
def Ctx.new : Ctx where
  result := 0
  timed := false
  scheduler := true
  fiber := true
  timer := false
  resultStr := ascii "ok"
  response := none

structure RockResult where
  result : Int32
  resultStr : Bytes
  response : Option RockResponse
  deriving DecidableEq, Repr

/-- Where a call of `RockStream::request` is. -/
inductive Request
  | addCtx
  | addTimer
  /-- before `ctx->timer = ..` -/
  | setTimer
  | enqueue
  | yieldToHold
  | readResult
  | readResultStr (result : Int32)
  | readResponse (result : Int32) (resultStr : Bytes)
  | finished (result : RockResult)
  deriving DecidableEq, Repr

/-- What an activity does next with a context: the assignments of `doRecv`, after
it took the context; `onTimeOut`, which erases under `m_mutex`; the loop of
`innerClose`; and the steps of `doRsp`. -/
inductive Stage
  | setResult (rsp : RockResponse)
  | setResultStr (rsp : RockResponse)
  | setResponse (rsp : RockResponse)
  | erase
  | setTimed
  | setIoError
  | setIoErrorStr
  | load
  | compareExchange (scd : Bool)
  | check (scd : Bool)
  | testTimer
  | cancelTimer
  | clearTimer
  | testTimed
  | setTimeout
  | setTimeoutStr
  | schedule
  deriving DecidableEq, Repr

/-- One step on the fields of a context; without a next stage `doRsp` has
returned. -/
def Ctx.run (ctx : Ctx) : Stage → Ctx × Option Stage
  | .setResult rsp => ({ ctx with result := rsp.result }, some (.setResultStr rsp))
  | .setResultStr rsp =>
      ({ ctx with resultStr := rsp.resultStr }, some (.setResponse rsp))
  | .setResponse rsp => ({ ctx with response := some rsp }, some .load)
  | .erase => (ctx, some .setTimed)
  | .setTimed => ({ ctx with timed := true }, some .load)
  | .setIoError => ({ ctx with result := IO_ERROR.toUInt32 }, some .setIoErrorStr)
  | .setIoErrorStr => ({ ctx with resultStr := ascii "io_error" }, some .load)
  | .load => (ctx, some (.compareExchange ctx.scheduler))
  | .compareExchange scd =>
      if ctx.scheduler = scd then
        ({ ctx with scheduler := false }, some (.check scd))
      else
        (ctx, none)
  | .check scd => (ctx, if !scd || !ctx.fiber then none else some .testTimer)
  | .testTimer => (ctx, some (if ctx.timer then .cancelTimer else .testTimed))
  | .cancelTimer => (ctx, some .clearTimer)
  | .clearTimer => ({ ctx with timer := false }, some .testTimed)
  | .testTimed => (ctx, some (if ctx.timed then .setTimeout else .schedule))
  | .setTimeout => ({ ctx with result := TIMEOUT.toUInt32 }, some .setTimeoutStr)
  | .setTimeoutStr => ({ ctx with resultStr := ascii "timeout" }, some .schedule)
  -- `schedule(&fiber)` swaps the fiber into the queue
  | .schedule => ({ ctx with fiber := false }, none)

/-- Where an activity is: between contexts, with those that the loop of
`innerClose` has yet to finish, or working on one. -/
inductive Pc (R : Type)
  | loop (rest : List R)
  | on (request : R) (stage : Stage) (rest : List R)
  deriving DecidableEq, Repr

def Pc.idle : Pc R := .loop []

def Pc.resume (r : R) (rest : List R) : Option Stage → Pc R
  | some next => .on r next rest
  | none => .loop rest

structure State (R A : Type) where
  ctxs : List R
  ctx : R → Ctx
  request : R → Request
  /-- whether the timer of the request is in the `TimerManager` -/
  timers : R → Bool
  /-- how often the fiber of the request was passed to `Scheduler::schedule` -/
  scheduled : R → Nat
  pc : A → Pc R

inductive Action (R A : Type)
  | request (request : R)
  | doRecv (party : A) (rsp : RockResponse)
  | onTimeOut (party : A) (request : R)
  /-- `ctxs.swap(m_ctxs)`, with the order in which the map is gone through -/
  | innerClose (party : A) (order : List R)
  | work (party : A)

section

variable {R A : Type} [DecidableEq R] [DecidableEq A]

def addCtx (sn : R → UInt32) (ctxs : List R) (request : R) : List R :=
  if ctxs.any fun other => sn other = sn request then ctxs else request :: ctxs

/-- `m_ctxs.erase(sn)`. -/
def eraseCtx (sn : R → UInt32) (ctxs : List R) (key : UInt32) : List R :=
  ctxs.filter fun other => sn other ≠ key

def getCtx (sn : R → UInt32) (ctxs : List R) (key : UInt32) : Option R :=
  ctxs.find? fun other => sn other = key

namespace State

variable (s : State R A)

def goto (party : A) (pc : Pc R) : State R A :=
  { s with pc := Function.update s.pc party pc }

def setCtx (request : R) (ctx : Ctx) : State R A :=
  { s with ctx := Function.update s.ctx request ctx }

def setRequest (request : R) (next : Request) : State R A :=
  { s with request := Function.update s.request request next }

end State

variable (sn : R → UInt32) (s : State R A)

def request (r : R) : Option (State R A) :=
  match s.request r with
  | .addCtx =>
      some (({ s with ctxs := addCtx sn s.ctxs r }.setCtx r .new).setRequest r
        .addTimer)
  | .addTimer =>
      some ({ s with timers := Function.update s.timers r true }.setRequest r
        .setTimer)
  | .setTimer =>
      some ((s.setCtx r { s.ctx r with timer := true }).setRequest r .enqueue)
  | .enqueue => some (s.setRequest r .yieldToHold)
  -- the fiber goes on once it has been scheduled
  | .yieldToHold =>
      if 0 < s.scheduled r then some (s.setRequest r .readResult) else none
  | .readResult =>
      some (s.setRequest r (.readResultStr (s.ctx r).result.toInt32))
  | .readResultStr result =>
      some (s.setRequest r (.readResponse result (s.ctx r).resultStr))
  | .readResponse result resultStr =>
      some (s.setRequest r (.finished ⟨result, resultStr, (s.ctx r).response⟩))
  | .finished _ => none

/-- `getAndDelCtx`; a response that finds no context is dropped. -/
def doRecv (party : A) (rsp : RockResponse) : State R A :=
  match getCtx sn s.ctxs rsp.sn with
  | none => s
  | some r =>
      { s with ctxs := eraseCtx sn s.ctxs rsp.sn }.goto party
        (.on r (.setResult rsp) [])

def onTimeOut (party : A) (r : R) : State R A :=
  { s with timers := Function.update s.timers r false }.goto party
    (.on r .erase [])

def innerClose (party : A) (order : List R) : State R A :=
  { s with ctxs := [] }.goto party (.loop order)

def effect (r : R) : Stage → State R A
  | .erase => { s with ctxs := eraseCtx sn s.ctxs (sn r) }
  | .cancelTimer => { s with timers := Function.update s.timers r false }
  | .schedule =>
      { s with scheduled := Function.update s.scheduled r (s.scheduled r + 1) }
  | _ => s

def work (party : A) : Option (State R A) :=
  match s.pc party with
  | .loop [] => none
  | .loop (r :: rest) => some (s.goto party (.on r .setIoError rest))
  | .on r stage rest =>
      some (((effect sn s r stage).setCtx r ((s.ctx r).run stage).1).goto party
        (.resume r rest ((s.ctx r).run stage).2))

def step : Action R A → Option (State R A)
  | .request r => request sn s r
  | .doRecv party rsp =>
      if s.pc party = .idle then some (doRecv sn s party rsp) else none
  | .onTimeOut party r =>
      if s.pc party = .idle ∧ s.timers r then some (onTimeOut s party r) else none
  | .innerClose party order =>
      if s.pc party = .idle ∧ order.Perm s.ctxs then
        some (innerClose s party order)
      else none
  | .work party => work sn s party

end

structure Initial (s : State R A) : Prop where
  ctxs : s.ctxs = []
  request : ∀ r, s.request r = .addCtx
  timers : ∀ r, s.timers r = false
  scheduled : ∀ r, s.scheduled r = 0
  pc : ∀ party, s.pc party = .idle

end Sylar.AsyncSocketStream
