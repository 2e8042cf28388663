import Sylar.Async.Once
import Sylar.Rock.Truncated

namespace Sylar

open Logic Data AsyncSocketStream

/-! A `RockConnection` and the `RockSession` that `RockServer` made of the other
end: the requests of the one, the request handler of the other, and the two
directions of the connection between them, byte by byte. -/

/-- `Response::Response` and `RockRequest::createResponse`. -/
def RockRequest.createResponse (req : RockRequest) : RockResponse :=
  ⟨⟨req.sn, req.cmd, 404, ascii "unhandle"⟩, ⟨[]⟩⟩

namespace RockServer

/-- The request handler that `handleClient` sets. -/
def requestHandler (req : RockRequest) (rsp : RockResponse) :
    Bool × RockResponse :=
  (true, { rsp with resultStr := req.body })

/-- What the handler makes of the response to a request. -/
def answer (req : RockRequest) : RockResponse :=
  (requestHandler req req.createResponse).2

end RockServer

namespace Exchange

/-- Where `doWrite` is: at `m_sem.wait`, before `m_queue.swap`, or at what is
left of `ctxs`. -/
inductive Writer (M : Type)
  | wait
  | swap
  | send (ctxs : List M)
  deriving DecidableEq, Repr

/-- `m_queue`, `m_sem` and `doWrite` of a stream. `found` counts the calls of
`enqueue` that found the queue empty and have not notified. -/
structure Outbox (M : Type) where
  queue : List M
  found : Nat
  permits : Nat
  writer : Writer M
  deriving DecidableEq, Repr

namespace Outbox

variable (box : Outbox M)

def new : Outbox M := ⟨[], 0, 0, .wait⟩

def enqueue (ctx : M) : Outbox M :=
  { box with
    queue := box.queue ++ [ctx]
    found := if box.queue.isEmpty then box.found + 1 else box.found }

def notify : Option (Outbox M) :=
  if 0 < box.found then
    some { box with found := box.found - 1, permits := box.permits + 1 }
  else none

/-- The next step of `doWrite`, with the message that it sends. -/
def advance : Option (Outbox M × Option M) :=
  match box.writer with
  | .wait =>
      if 0 < box.permits then
        some ({ box with permits := box.permits - 1, writer := .swap }, none)
      else none
  | .swap => some ({ box with queue := [], writer := .send box.queue }, none)
  | .send [] => some ({ box with writer := .wait }, none)
  | .send (ctx :: ctxs) => some ({ box with writer := .send ctxs }, some ctx)

/-- The `break` after a failed `doSend`. -/
def abandon : Outbox M := { box with writer := .wait }

/-- What `innerClose` does to the queue and the semaphore. -/
def close : Outbox M := { box with queue := [], permits := box.permits + 1 }

/-- What is to be sent, in order. -/
def items : List M :=
  match box.writer with
  | .send ctxs => ctxs ++ box.queue
  | _ => box.queue

end Outbox

/-- The bytes of one direction and the number of stream calls on it so far. -/
structure Pipe where
  transit : Bytes
  calls : Nat
  deriving DecidableEq, Repr

def Pipe.socket (pipe : Pipe) : Socket := ⟨true, pipe.transit, pipe.calls⟩

def Pipe.of (socket : Socket) : Pipe := ⟨socket.transit, socket.calls⟩

/-- One end, and the direction that it sends to. `crashed` is a process that
followed a null pointer. -/
structure Side (M : Type) where
  connected : Bool
  crashed : Bool
  outbox : Outbox M
  pipe : Pipe

namespace Side

variable (peer : Peer) (env : Surroundings) (host : Host) (gzip : Gzip)

def new : Side M := ⟨true, false, .new, ⟨[], 0⟩⟩

/-- One step of `doWrite`. When the network is gone a send may still report
success, `ok`, for bytes that do not arrive. The test of `isConnected` is left
out: on a closed socket every send fails. -/
def write (message : M → Message) (lost ok : Bool) (side : Side M) :
    Option (Side M) :=
  match side.outbox.advance with
  | none => none
  | some (outbox, none) => some { side with outbox := outbox }
  | some (outbox, some ctx) =>
      if !side.connected || (lost && !ok) then
        some { side with outbox := outbox.abandon, connected := false }
      else if lost then some { side with outbox := outbox }
      else
        match RockMessageDecoder.serializeTo peer env host gzip (message ctx)
            side.pipe.socket with
        | .done rt socket =>
            if 0 < rt then some { side with outbox := outbox, pipe := .of socket }
            else
              some { side with
                outbox := outbox.abandon
                connected := false
                pipe := .of socket }
        | .raise _ socket =>
            some { side with outbox := outbox.abandon, pipe := .of socket }
        | .fault => some { side with crashed := true }

/-- `SocketStream::close` at the start of `innerClose`. -/
def drop (side : Side M) : Side M := { side with connected := false }

def innerClose (side : Side M) : Side M :=
  { side with outbox := side.outbox.close }

end Side

end Exchange

open Exchange

structure Exchange (R A : Type) where
  base : State R A
  client : Side R
  server : Side RockResponse
  /-- the calls of `handleRequest` that are scheduled on `m_worker` -/
  tasks : List RockRequest
  /-- the requests that the handler was called for -/
  handled : List RockRequest
  /-- the network between the two is gone -/
  lost : Bool

namespace Exchange

inductive Action (R A : Type)
  | request (r : R)
  | onTimeOut (party : A) (r : R)
  | work (party : A)
  | clientNotify
  | clientWrite (ok : Bool)
  | clientRecv
  /-- the user or the stream itself closes the socket, and the rest of
  `innerClose` follows -/
  | clientClose
  | clientInnerClose (party : A) (order : List R)
  | serverRecv
  | handle (position : Nat)
  | serverNotify
  | serverWrite (ok : Bool)
  | serverClose
  | serverInnerClose
  /-- of each direction the first bytes still arrive -/
  | lose (requests responses : Nat)

variable {R A : Type} [DecidableEq R] [DecidableEq A]

/-- What the run is given: the requests, with the numbers that they carry, the
two ends and what they meet from outside. -/
structure Setting (R A : Type) where
  issued : R → RockRequest
  /-- the activity that `doRead` of the client is -/
  reader : A
  /-- the sizes that the configurations of the two programs give -/
  client : Peer
  server : Peer
  env : Surroundings
  host : Host
  gzip : Gzip

namespace Setting

variable (setting : Setting R A)

def sn (r : R) : UInt32 := (setting.issued r).sn

def request (r : R) : Message := .request (setting.issued r)

/-- The answer of the server to a request. -/
def answer (r : R) : RockResponse := RockServer.answer (setting.issued r)

end Setting

variable (setting : Setting R A) (s : Exchange R A)

/-- `recv` waits while nothing is in transit, until the other end closes. -/
def ready (pipe : Pipe) (ended : Bool) : Bool :=
  !pipe.transit.isEmpty || ended

/-- `doRecv` of the server. A session has no requests of its own that a response
could be for, and no notify handler. -/
def serverRecv : Option (Exchange R A) :=
  if s.server.connected && ready s.client.pipe (s.lost || !s.client.connected) then
    match RockMessageDecoder.parseFrom setting.server setting.env setting.host
        setting.gzip s.client.pipe.socket with
    | .done (some message) socket =>
        let s := { s with client := { s.client with pipe := .of socket } }
        match message with
        | .request req => some { s with tasks := s.tasks ++ [req] }
        | _ => some s
    | .done none socket =>
        some { s with
          client := { s.client with pipe := .of socket }
          server := s.server.drop }
    | .raise _ socket =>
        some { s with
          client := { s.client with pipe := .of socket }
          server := s.server.drop }
    | .fault => some { s with server := { s.server with crashed := true } }
  else none

/-- `handleRequest` on a thread of the worker, with the `sendMessage` in it. -/
def handle (position : Nat) : Option (Exchange R A) :=
  match s.tasks[position]? with
  | none => none
  | some req =>
      let (kept, rsp) := RockServer.requestHandler req req.createResponse
      let server :=
        if s.server.connected then
          { s.server with outbox := s.server.outbox.enqueue rsp }
        else s.server
      some { s with
        tasks := s.tasks.eraseIdx position
        handled := s.handled ++ [req]
        server := if kept then server else server.drop }

/-- `doRecv` of the client, whose reader has finished with the last one. A
connection without a request handler leaves a request. -/
def clientRecv : Option (Exchange R A) :=
  if s.client.connected && s.base.pc setting.reader = .idle &&
      ready s.server.pipe (s.lost || !s.server.connected) then
    match RockMessageDecoder.parseFrom setting.client setting.env setting.host
        setting.gzip s.server.pipe.socket with
    | .done (some message) socket =>
        let s := { s with server := { s.server with pipe := .of socket } }
        match message with
        | .response rsp =>
            some { s with base := doRecv setting.sn s.base setting.reader rsp }
        | _ => some s
    | .done none socket =>
        some { s with
          server := { s.server with pipe := .of socket }
          client := s.client.drop }
    | .raise _ socket =>
        some { s with
          server := { s.server with pipe := .of socket }
          client := s.client.drop }
    | .fault => some { s with client := { s.client with crashed := true } }
  else none

/-- The call of `enqueue` in `request`. -/
def request (r : R) : Option (Exchange R A) :=
  (AsyncSocketStream.request setting.sn s.base r).map fun base =>
    { s with
      base := base
      client :=
        if s.base.request r = .enqueue then
          { s.client with outbox := s.client.outbox.enqueue r }
        else s.client }

def step : Action R A → Option (Exchange R A)
  | .request r => request setting s r
  | .onTimeOut party r =>
      (AsyncSocketStream.step setting.sn s.base (.onTimeOut party r)).map
        fun base => { s with base := base }
  | .work party =>
      (AsyncSocketStream.step setting.sn s.base (.work party)).map
        fun base => { s with base := base }
  | .clientNotify =>
      s.client.outbox.notify.map fun outbox =>
        { s with client := { s.client with outbox := outbox } }
  | .clientWrite ok =>
      (s.client.write setting.client setting.env setting.host setting.gzip
        setting.request s.lost ok).map fun client => { s with client := client }
  | .clientRecv => clientRecv setting s
  | .clientClose => some { s with client := s.client.drop }
  | .clientInnerClose party order =>
      if s.client.connected then none
      else
        (AsyncSocketStream.step setting.sn s.base (.innerClose party order)).map
          fun base => { s with base := base, client := s.client.innerClose }
  | .serverRecv => serverRecv setting s
  | .handle position => handle s position
  | .serverNotify =>
      s.server.outbox.notify.map fun outbox =>
        { s with server := { s.server with outbox := outbox } }
  | .serverWrite ok =>
      (s.server.write setting.server setting.env setting.host setting.gzip
        .response s.lost ok).map fun server => { s with server := server }
  | .serverClose => some { s with server := s.server.drop }
  | .serverInnerClose =>
      if s.server.connected then none
      else some { s with server := s.server.innerClose }
  | .lose requests responses =>
      some { s with
        lost := true
        client := { s.client with pipe :=
          { s.client.pipe with transit := s.client.pipe.transit.take requests } }
        server := { s.server with pipe :=
          { s.server.pipe with
            transit := s.server.pipe.transit.take responses } } }

structure Initial (s : Exchange R A) : Prop where
  base : AsyncSocketStream.Initial s.base
  client : s.client = .new
  server : s.server = .new
  tasks : s.tasks = []
  handled : s.handled = []
  lost : s.lost = false

end Exchange

end Sylar
