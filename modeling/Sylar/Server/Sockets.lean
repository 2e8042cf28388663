import Sylar.Logic.Ownership
import Sylar.Logic.Reach

namespace Sylar.Sockets

open Logic

/-! `Socket` objects and the handles of the system that they open, accept and close. `A`
are the addresses, `D` the handles, and `T` the fibers that are in `accept`. The calls of
one object do not overlap, but for `accept`, which reads a listening object only. -/

inductive SockType
  | TCP
  | UDP
  deriving DecidableEq

structure Socket (A D : Type) where
  m_family : Int32
  m_type : SockType
  /-- -1 is `none`. -/
  m_sock : Option D := none
  m_isConnected : Bool := false
  /-- whose name `getsockname` has told -/
  m_localAddress : Option Nat := none
  m_remoteAddress : Option A := none
  /-- `close` is past `s_closesocket`, and `m_sock` is not yet -1. -/
  closing : Bool := false
  /-- the socket that was last opened for `m_sock` -/
  given : Nat := 0

variable {T A D : Type}

namespace Socket

variable (sock : Socket A D)

/-- The handle that `send`, `recv` and `recvFrom` hand to the system. -/
def used : Option D :=
  if sock.m_isConnected then sock.m_sock else none

/-- What the object has to close. -/
def holding : Option (D × Nat) :=
  if sock.closing then none else sock.m_sock.map (·, sock.given)

def getLocalAddress (named : Bool) : Socket A D :=
  match sock.m_localAddress, sock.m_sock with
  | none, some _ => if named then { sock with m_localAddress := some sock.given } else sock
  | _, _ => sock

def getRemoteAddress (peer : Option A) : Socket A D :=
  match sock.m_remoteAddress, sock.m_sock with
  | none, some _ => { sock with m_remoteAddress := peer }
  | _, _ => sock

/-- `Socket::init`, on a handle that has passed its check -/
def init (newsock : D) (number : Nat) (named : Bool) (peer : Option A) : Socket A D :=
  ({ sock with m_sock := some newsock, given := number, m_isConnected := true
     }.getLocalAddress named).getRemoteAddress peer

end Socket

/-- A fiber in `accept`, with the family and the type of the listening object. -/
structure Accept (D : Type) where
  m_family : Int32
  m_type : SockType
  newsock : D
  number : Nat

structure State (T A D : Type) where
  /-- the socket that is open under a handle -/
  handle : D → Option Nat
  /-- how many sockets have been opened -/
  sockets : Nat
  /-- `m_datas`: whether the `FdCtx` of a handle `isSocket` -/
  datas : D → Option Bool
  object : Nat → Option (Socket A D)
  made : Nat
  accepting : T → Option (Accept D)
  /-- what `accept` has opened and left open when it returned nothing -/
  lost : Nat → Option D

/-- What `socket_f` returns, and whether a `FdCtx` made for it `isSocket`. -/
abbrev Opened (D : Type) := Option (D × Bool)

/-- What `s_accept` answers. For an `SSLSocket` there is a handshake in `init`. -/
inductive Answer (A : Type)
  | failed
  | accepted (handshake : Bool) (named : Bool) (peer : Option A)

/-- `hook` is `t_hook_enable` of the thread. -/
inductive Action (T A D : Type)
  | createTCP (family : Int32)
  | createUDP (hook : Bool) (family : Int32) (opened : Opened D)
  | bind (hook : Bool) (i : Nat) (addr : A) (opened : Opened D) (bound named : Bool)
  | connect (hook : Bool) (i : Nat) (addr : A) (opened : Opened D) (connected named : Bool)
  | reconnect (hook : Bool) (i : Nat) (opened : Opened D) (connected named : Bool)
  | checkConnected (i : Nat) (answered : Bool)
  | getLocalAddress (i : Nat) (named : Bool)
  | getRemoteAddress (i : Nat) (peer : Option A)
  | close (hook : Bool) (i : Nat)
  /-- `close` goes on behind `s_closesocket`. -/
  | closed (i : Nat)
  /-- `Socket::~Socket` -/
  | destroy (hook : Bool) (i : Nat)
  | accept (hook : Bool) (t : T) (i : Nat) (fd : D) (isSocket : Bool)
  | answer (hook : Bool) (t : T) (answer : Answer A)

namespace State

variable [DecidableEq T] [DecidableEq D] (getFamily : A → Int32) (s : State T A D)

def put (i : Nat) (sock : Option (Socket A D)) : State T A D :=
  { s with object := Function.update s.object i sock }

/-- A number for a new object. -/
def make : State T A D :=
  { s with made := s.made + 1 }

/-- `s_socket` -/
def opens (hook : Bool) (fd : D) (isSocket : Bool) : State T A D :=
  { s with
    handle := Function.update s.handle fd (some s.sockets)
    sockets := s.sockets + 1
    datas := if hook then
      Function.update s.datas fd (some ((s.datas fd).getD isSocket)) else s.datas }

/-- `s_closesocket` -/
def closes (hook : Bool) (fd : D) : State T A D :=
  { s with
    handle := Function.update s.handle fd none
    datas := if hook then Function.update s.datas fd none else s.datas }

/-- `newSock` for an object that is not valid. The system gives out a handle that is not
in use. -/
def newSock (hook : Bool) (sock : Socket A D) (opened : Opened D) :
    Option (State T A D × Socket A D) :=
  match sock.m_sock, opened with
  | none, some (fd, isSocket) =>
      match s.handle fd with
      | none =>
          some (s.opens hook fd isSocket, { sock with m_sock := some fd, given := s.sockets })
      | some _ => none
  | _, _ => some (s, sock)

/-- `close`, up to `s_closesocket`. -/
def close (hook : Bool) (i : Nat) (sock : Socket A D) : State T A D :=
  match sock.m_sock with
  | none => s.put i (some { sock with m_isConnected := false })
  | some fd =>
      (s.closes hook fd).put i (some { sock with m_isConnected := false, closing := true })

/-- The trial connection to a Unix address is a socket of its own. -/
def bind (i : Nat) (sock : Socket A D) (addr : A) (bound named : Bool) : State T A D :=
  s.put i (some (if sock.m_sock.isSome && getFamily addr = sock.m_family && bound then
    sock.getLocalAddress named else sock))

def connect (hook : Bool) (i : Nat) (sock : Socket A D) (addr : A)
    (connected named : Bool) : State T A D :=
  if sock.m_sock.isSome && getFamily addr = sock.m_family then
    if connected then
      s.put i (some ({ sock with m_isConnected := true }.getLocalAddress named))
    else s.close hook i sock
  else s.put i (some sock)

/-- The object is there, and no other call of it is under way. -/
def idle (i : Nat) : Option (Socket A D) :=
  (s.object i).filter fun sock => !sock.closing

/-- `close` behind `s_closesocket`. -/
def closed (i : Nat) : Option (State T A D) :=
  match s.object i with
  | some sock =>
      if sock.closing then
        some (s.put i (some { sock with m_sock := none, closing := false }))
      else none
  | none => none

def enter (t : T) (call : Accept D) : State T A D :=
  { s with accepting := Function.update s.accepting t (some call) }

/-- `accept`, up to `s_accept`. -/
def accept (hook : Bool) (t : T) (i : Nat) (fd : D) (isSocket : Bool) :
    Option (State T A D) :=
  match s.accepting t, s.object i, s.handle fd with
  | none, some sock, none =>
      some ((s.opens hook fd isSocket).enter t ⟨sock.m_family, sock.m_type, fd, s.sockets⟩)
  | _, _, _ => none

def finish (t : T) : State T A D :=
  { s with accepting := Function.update s.accepting t none }

def lose (number : Nat) (fd : D) : State T A D :=
  { s with lost := Function.update s.lost number (some fd) }

/-- `accept` behind `s_accept`. -/
def answer (hook : Bool) (t : T) (call : Accept D) : Answer A → State T A D
  | .failed => (s.closes hook call.newsock).finish t
  | .accepted handshake named peer =>
      if s.datas call.newsock = some true then
        if handshake then
          (s.make.finish t).put s.made (some
            ({ m_family := call.m_family, m_type := call.m_type : Socket A D }.init
              call.newsock call.number named peer))
        else (s.closes hook call.newsock).finish t
      else (s.finish t).lose call.number call.newsock

def step : Action T A D → Option (State T A D)
  | .createTCP family =>
      some (s.make.put s.made (some { m_family := family, m_type := .TCP }))
  | .createUDP hook family opened =>
      (s.make.newSock hook { m_family := family, m_type := .UDP } opened).map
        fun (next, sock) => next.put s.made (some { sock with m_isConnected := true })
  | .bind hook i addr opened bound named => do
      let sock ← s.idle i
      let (s, sock) ← s.newSock hook sock opened
      return s.bind getFamily i sock addr bound named
  | .connect hook i addr opened connected named => do
      let sock ← s.idle i
      let (s, sock) ← s.newSock hook { sock with m_remoteAddress := some addr } opened
      return s.connect getFamily hook i sock addr connected named
  | .reconnect hook i opened connected named => do
      let sock ← s.idle i
      match sock.m_remoteAddress with
      | none => return s
      | some addr =>
          let (s, sock) ← s.newSock hook { sock with m_localAddress := none } opened
          return s.connect getFamily hook i sock addr connected named
  | .checkConnected i answered =>
      (s.idle i).map fun sock =>
        s.put i (some { sock with m_isConnected := sock.m_sock.isSome && answered })
  | .getLocalAddress i named =>
      (s.idle i).map fun sock => s.put i (some (sock.getLocalAddress named))
  | .getRemoteAddress i peer =>
      (s.idle i).map fun sock => s.put i (some (sock.getRemoteAddress peer))
  | .close hook i => (s.idle i).map (s.close hook i)
  | .closed i => s.closed i
  | .destroy hook i =>
      (s.idle i).map fun sock =>
        match sock.m_sock with
        | none => s.put i none
        | some fd => (s.closes hook fd).put i none
  | .accept hook t i fd isSocket => s.accept hook t i fd isSocket
  | .answer hook t answer =>
      (s.accepting t).map fun call => s.answer hook t call answer

/-- Who has a handle to close. What is lost is nobody's. -/
inductive Holder (T : Type)
  | object (i : Nat)
  | accept (t : T)
  | lost (k : Nat)
  deriving DecidableEq

def holder : Holder T → Option (D × Nat)
  | .object i => (s.object i).bind Socket.holding
  | .accept t => (s.accepting t).map fun call => (call.newsock, call.number)
  | .lost k => (s.lost k).map (·, k)

end State

namespace Socket

/-- Only a UDP object may be connected without a socket, when it could not be opened. -/
def Sound (sock : Socket A D) : Prop :=
  sock.m_isConnected = true →
    sock.closing = false ∧ (sock.m_type = .TCP → sock.m_sock.isSome = true)

variable {sock : Socket A D} {named : Bool} {peer : Option A}

@[simp] theorem holding_getLocalAddress :
    (sock.getLocalAddress named).holding = sock.holding := by
  unfold getLocalAddress
  split
  · split <;> rfl
  · rfl

@[simp] theorem holding_getRemoteAddress :
    (sock.getRemoteAddress peer).holding = sock.holding := by
  unfold getRemoteAddress
  split <;> rfl

theorem Sound.getLocalAddress (sound : sock.Sound) : (sock.getLocalAddress named).Sound := by
  unfold Socket.getLocalAddress
  split
  · split <;> exact sound
  · exact sound

theorem Sound.getRemoteAddress (sound : sock.Sound) :
    (sock.getRemoteAddress peer).Sound := by
  unfold Socket.getRemoteAddress
  split <;> exact sound

end Socket

namespace State

variable [DecidableEq T] [DecidableEq D] {getFamily : A → Int32} {s next : State T A D}
  {i : Nat} {sock : Socket A D} {hook : Bool} {fd : D} {t : T}

omit [DecidableEq D] in
theorem holder_put (o : Option (Socket A D)) : (s.put i o).holder =
    Function.update s.holder (.object i) (o.bind Socket.holding) := by
  funext holder
  cases holder with
  | object j =>
      change (Function.update s.object i o j).bind Socket.holding = _
      rw [Function.update_apply, Function.update_apply]
      by_cases same : j = i
      · rw [if_pos same, if_pos (congrArg Holder.object same)]
      · rw [if_neg same, if_neg fun other => same (Holder.object.inj other)]
        rfl
  | accept t => exact (Function.update_of_ne (fun same => by cases same) ..).symm
  | lost k => exact (Function.update_of_ne (fun same => by cases same) ..).symm

omit [DecidableEq D] in
theorem holder_finish : (s.finish t).holder =
    Function.update s.holder (.accept t) none := by
  funext holder
  cases holder with
  | object i => exact (Function.update_of_ne (fun same => by cases same) ..).symm
  | accept u =>
      change (Function.update s.accepting t none u).map _ = _
      rw [Function.update_apply, Function.update_apply]
      by_cases same : u = t
      · rw [if_pos same, if_pos (congrArg Holder.accept same)]
        rfl
      · rw [if_neg same, if_neg fun other => same (Holder.accept.inj other)]
        rfl
  | lost k => exact (Function.update_of_ne (fun same => by cases same) ..).symm

omit [DecidableEq D] in
theorem holder_lose (k : Nat) : (s.lose k fd).holder =
    Function.update s.holder (.lost k) (some (fd, k)) := by
  funext holder
  cases holder with
  | object i => exact (Function.update_of_ne (fun same => by cases same) ..).symm
  | accept t => exact (Function.update_of_ne (fun same => by cases same) ..).symm
  | lost j =>
      change (Function.update s.lost k (some fd) j).map (·, j) = _
      rw [Function.update_apply, Function.update_apply]
      by_cases same : j = k
      · rw [if_pos same, if_pos (congrArg Holder.lost same), same]
        rfl
      · rw [if_neg same, if_neg fun other => same (Holder.lost.inj other)]
        rfl

omit [DecidableEq D] in
theorem holder_enter (call : Accept D) : (s.enter t call).holder =
      Function.update s.holder (.accept t) (some (call.newsock, call.number)) := by
  funext holder
  cases holder with
  | object i => exact (Function.update_of_ne (fun same => by cases same) ..).symm
  | accept u =>
      change (Function.update s.accepting t (some call) u).map _ = _
      rw [Function.update_apply, Function.update_apply]
      by_cases same : u = t
      · rw [if_pos same, if_pos (congrArg Holder.accept same)]
        rfl
      · rw [if_neg same, if_neg fun other => same (Holder.accept.inj other)]
        rfl
  | lost k => exact (Function.update_of_ne (fun same => by cases same) ..).symm

/-- The numbers tell the open sockets apart. -/
structure Numbered (handle : D → Option Nat) (sockets : Nat) : Prop where
  fresh : ∀ fd k, handle fd = some k → k < sockets
  distinct : ∀ fd other k, handle fd = some k → handle other = some k → fd = other

namespace Numbered

variable {handle : D → Option Nat} {sockets : Nat}

theorem opens (numbered : Numbered handle sockets) (fd : D) :
    Numbered (Function.update handle fd (some sockets)) (sockets + 1) := by
  have before (other : D) (still_open : handle other = some sockets) : False :=
    Nat.lt_irrefl _ (numbered.fresh other sockets still_open)
  constructor
  · intro other k opened
    rw [Function.update_apply] at opened
    split at opened
    · cases opened
      exact Nat.lt_succ_self _
    · exact Nat.lt_succ_of_lt (numbered.fresh other k opened)
  · intro one two k first second
    rw [Function.update_apply] at first second
    split at first
    · rename_i same
      cases first
      split at second
      · rename_i too
        exact same.trans too.symm
      · exact (before two second).elim
    · split at second
      · cases second
        exact (before one first).elim
      · exact numbered.distinct one two k first second

theorem closes (numbered : Numbered handle sockets) (fd : D) :
    Numbered (Function.update handle fd none) sockets := by
  have still_open {other : D} {k : Nat} (still : Function.update handle fd none other = some k) :
      handle other = some k := by
    rw [Function.update_apply] at still
    split at still
    · cases still
    · exact still
  constructor
  · intro other k still
    exact numbered.fresh other k (still_open still)
  · intro one two k first second
    exact numbered.distinct one two k (still_open first) (still_open second)

end Numbered

/-- The objects have numbers below `made`, and are connected to what they have open. -/
structure Objects (object : Nat → Option (Socket A D)) (made : Nat) : Prop where
  made : ∀ i, made ≤ i → object i = none
  sound : ∀ i sock, object i = some sock → sock.Sound

namespace Objects

variable {object : Nat → Option (Socket A D)} {made : Nat}

omit [DecidableEq D] in
theorem there (objects : Objects object made) (now : object i = some sock) : i < made := by
  apply Nat.lt_of_not_le
  intro after
  rw [objects.made i after] at now
  cases now

omit [DecidableEq D] in
theorem make (objects : Objects object made) : Objects object (made + 1) where
  made i after := objects.made i (Nat.le_of_succ_le after)
  sound := objects.sound

omit [DecidableEq D] in
theorem put (objects : Objects object made) (there : i < made) {o : Option (Socket A D)}
    (sound : ∀ sock, o = some sock → sock.Sound) :
    Objects (Function.update object i o) made where
  made j after := by
    have other : j ≠ i := Nat.ne_of_gt (Nat.lt_of_lt_of_le there after)
    exact (Function.update_of_ne other ..).trans (objects.made j after)
  sound j sock now := by
    rw [Function.update_apply] at now
    split at now
    · exact sound sock now
    · exact objects.sound j sock now

end Objects

/-- Every open handle has one holder. -/
structure Inv (s : State T A D) : Prop where
  owned : Owned s.holder s.handle
  numbered : Numbered s.handle s.sockets
  objects : Objects s.object s.made

omit [DecidableEq T] [DecidableEq D] in
theorem put_put (one two : Option (Socket A D)) :
    (s.put i one).put i two = s.put i two := by
  unfold put
  rw [Function.update_idem]

omit [DecidableEq T] in
theorem closes_put (one two : Option (Socket A D)) :
    ((s.put i one).closes hook fd).put i two = (s.closes hook fd).put i two :=
  put_put (s := s.closes hook fd) one two

omit [DecidableEq T] in
theorem close_put (one : Option (Socket A D)) :
    (s.put i one).close hook i sock = s.close hook i sock := by
  unfold close
  split
  · exact put_put ..
  · exact closes_put ..

omit [DecidableEq T] [DecidableEq D] in
theorem bind_put (one : Option (Socket A D)) (addr : A) (bound named : Bool) :
    (s.put i one).bind getFamily i sock addr bound named =
      s.bind getFamily i sock addr bound named :=
  put_put ..

omit [DecidableEq T] in
theorem connect_put (one : Option (Socket A D)) (addr : A) (connected named : Bool) :
    (s.put i one).connect getFamily hook i sock addr connected named =
      s.connect getFamily hook i sock addr connected named := by
  unfold connect
  rw [close_put, put_put, put_put]

omit [DecidableEq T] in
theorem of_newSock {opened : Opened D} {new : Socket A D}
    (taken : s.newSock hook sock opened = some (next, new)) :
    (∃ fd isSocket, sock.m_sock = none ∧ opened = some (fd, isSocket) ∧ s.handle fd = none ∧
      s.opens hook fd isSocket = next ∧
      { sock with m_sock := some fd, given := s.sockets } = new) ∨
      s = next ∧ sock = new := by
  unfold State.newSock at taken
  split at taken
  · rename_i fd isSocket invalid
    split at taken
    · rename_i free
      cases taken
      exact .inl ⟨fd, isSocket, invalid, rfl, free, rfl, rfl⟩
    · cases taken
  · cases taken
    exact .inr ⟨rfl, rfl⟩

omit [DecidableEq T] [DecidableEq D] in
theorem of_closed (taken : s.closed i = some next) :
    ∃ sock, s.object i = some sock ∧ sock.closing = true ∧
      s.put i (some { sock with m_sock := none, closing := false }) = next := by
  unfold State.closed at taken
  split at taken
  · rename_i sock object
    split at taken
    · rename_i closing
      exact ⟨sock, object, closing, Option.some.inj taken⟩
    · cases taken
  · cases taken

theorem of_accept {isSocket : Bool} (taken : s.accept hook t i fd isSocket = some next) :
    ∃ sock, s.accepting t = none ∧ s.object i = some sock ∧ s.handle fd = none ∧
      (s.opens hook fd isSocket).enter t ⟨sock.m_family, sock.m_type, fd, s.sockets⟩ =
        next := by
  unfold State.accept at taken
  split at taken
  · rename_i sock ready object free
    exact ⟨sock, ready, object, free, Option.some.inj taken⟩
  · cases taken

omit [DecidableEq T] [DecidableEq D] in
theorem holder_accept {call : Accept D} (accepting : s.accepting t = some call) :
    s.holder (.accept t) = some (call.newsock, call.number) := by
  change (s.accepting t).map _ = _
  rw [accepting]
  rfl

omit [DecidableEq T] [DecidableEq D] in
theorem holder_object (object : s.object i = some sock) :
    s.holder (.object i) = sock.holding := by
  change (s.object i).bind Socket.holding = _
  rw [object]
  rfl

namespace Inv

omit [DecidableEq T] [DecidableEq D] in
theorem make (inv : s.Inv) : s.make.Inv :=
  ⟨inv.owned, inv.numbered, inv.objects.make⟩

omit [DecidableEq T] [DecidableEq D] in
theorem unmade (inv : s.Inv) : s.make.holder (.object s.made) = none := by
  change (s.object s.made).bind Socket.holding = none
  rw [inv.objects.made _ (Nat.le_refl _)]
  rfl

omit [DecidableEq D] in
theorem put (inv : s.Inv) (there : i < s.made)
    (same : sock.holding = s.holder (.object i)) (sound : sock.Sound) :
    (s.put i (some sock)).Inv where
  owned := by
    rw [holder_put]
    change Owned (Function.update s.holder (.object i) sock.holding) s.handle
    rw [same, Function.update_eq_self]
    exact inv.owned
  numbered := inv.numbered
  objects := inv.objects.put there fun other now => by
    cases now
    exact sound

theorem opens (inv : s.Inv) (there : i < s.made) (nothing : s.holder (.object i) = none)
    (free : s.handle fd = none) (isSocket : Bool)
    (holding : sock.holding = some (fd, s.sockets)) (sound : sock.Sound) :
    ((s.opens hook fd isSocket).put i (some sock)).Inv where
  owned := by
    rw [holder_put]
    change Owned (Function.update s.holder (.object i) sock.holding)
      (Function.update s.handle fd (some s.sockets))
    rw [holding]
    exact inv.owned.acquire nothing free s.sockets
  numbered := inv.numbered.opens fd
  objects := inv.objects.put there fun other now => by
    cases now
    exact sound

theorem closes (inv : s.Inv) (object : s.object i = some sock) {k : Nat}
    (holding : sock.holding = some (fd, k)) {o : Option (Socket A D)}
    (nothing : o.bind Socket.holding = none) (sound : ∀ sock, o = some sock → sock.Sound) :
    ((s.closes hook fd).put i o).Inv where
  owned := by
    rw [holder_put, nothing]
    exact inv.owned.release ((holder_object object).trans holding)
  numbered := inv.numbered.closes fd
  objects := inv.objects.put (inv.objects.there object) sound

/-- `newSock`, or an object that is valid already. -/
theorem newSock (inv : s.Inv) (there : i < s.made)
    (same : sock.holding = s.holder (.object i)) (idle : sock.closing = false)
    (sound : sock.Sound) {opened : Opened D} {new : Socket A D}
    (taken : s.newSock hook sock opened = some (next, new)) :
    (next.put i (some new)).Inv ∧ i < next.made ∧ new.closing = false ∧
      new.m_type = sock.m_type := by
  rcases of_newSock taken with ⟨fd, isSocket, invalid, -, free, rfl, rfl⟩ | ⟨rfl, rfl⟩
  · have nothing : s.holder (.object i) = none := by
      rw [← same, Socket.holding, invalid, idle]
      rfl
    have holding : ({ sock with m_sock := some fd, given := s.sockets } :
        Socket A D).holding = some (fd, s.sockets) := by
      unfold Socket.holding
      rw [idle]
      rfl
    exact ⟨inv.opens there nothing free isSocket holding fun _ => ⟨idle, fun _ => rfl⟩,
      there, idle, rfl⟩
  · exact ⟨inv.put there same sound, there, idle, rfl⟩

theorem close (inv : s.Inv) (object : s.object i = some sock)
    (idle : sock.closing = false) : (s.close hook i sock).Inv := by
  have there := inv.objects.there object
  unfold State.close
  split
  · exact inv.put there (holder_object object).symm fun connected => by cases connected
  · rename_i fd valid
    have holding : sock.holding = some (fd, sock.given) := by
      unfold Socket.holding
      rw [idle, valid]
      rfl
    apply inv.closes object holding rfl
    intro other now connected
    cases now
    cases connected

omit [DecidableEq D] in
theorem bind (inv : s.Inv) (object : s.object i = some sock) (addr : A)
    (bound named : Bool) : (s.bind getFamily i sock addr bound named).Inv := by
  have there := inv.objects.there object
  have same := (holder_object object).symm
  have sound := inv.objects.sound i sock object
  unfold State.bind
  split
  · exact inv.put there (Socket.holding_getLocalAddress.trans same) sound.getLocalAddress
  · exact inv.put there same sound

theorem connect (inv : s.Inv) (object : s.object i = some sock)
    (idle : sock.closing = false) (addr : A) (connected named : Bool) :
    (s.connect getFamily hook i sock addr connected named).Inv := by
  have there := inv.objects.there object
  have same := (holder_object object).symm
  unfold State.connect
  split
  · rename_i valid
    split
    · have sound : ({ sock with m_isConnected := true } : Socket A D).Sound :=
        fun _ => ⟨idle, fun _ => (Bool.and_eq_true_iff.mp valid).1⟩
      exact inv.put there (Socket.holding_getLocalAddress.trans same) sound.getLocalAddress
    · exact inv.close object idle
  · exact inv.put there same (inv.objects.sound i sock object)

theorem enter (inv : s.Inv) (ready : s.accepting t = none) (free : s.handle fd = none)
    (isSocket : Bool) (family : Int32) (type : SockType) :
    ((s.opens hook fd isSocket).enter t ⟨family, type, fd, s.sockets⟩).Inv where
  owned := by
    have nothing : s.holder (.accept t) = none := by
      change (s.accepting t).map _ = none
      rw [ready]
      rfl
    rw [holder_enter]
    exact inv.owned.acquire nothing free s.sockets
  numbered := inv.numbered.opens fd
  objects := inv.objects

omit [DecidableEq T] [DecidableEq D] in
theorem unlost (inv : s.Inv) {k : Nat} (held : s.holder (.accept t) = some (fd, k)) :
    s.holder (.lost k) = none := by
  change (s.lost k).map (·, k) = none
  cases lost : s.lost k with
  | none => rfl
  | some other =>
      have also : s.holder (.lost k) = some (other, k) := by
        change (s.lost k).map (·, k) = _
        rw [lost]
        rfl
      have same : other = fd := inv.numbered.distinct other fd k
        (inv.owned.live_of_held _ _ _ also) (inv.owned.live_of_held _ _ _ held)
      cases inv.owned.apart held (same ▸ also)

theorem answer (inv : s.Inv) {call : Accept D} (accepting : s.accepting t = some call)
    (answer : Answer A) : (s.answer hook t call answer).Inv := by
  have held := holder_accept accepting
  have closed : ((s.closes hook call.newsock).finish t).Inv := by
    refine ⟨?_, inv.numbered.closes call.newsock, inv.objects⟩
    rw [holder_finish]
    exact inv.owned.release held
  cases answer with
  | failed => exact closed
  | accepted handshake named peer =>
      change (if s.datas call.newsock = some true then _ else _ : State T A D).Inv
      split
      · cases handshake with
        | false => exact closed
        | true =>
            let sock : Socket A D := { m_family := call.m_family, m_type := call.m_type }
            have holding : (sock.init call.newsock call.number named peer).holding =
                some (call.newsock, call.number) :=
              Socket.holding_getRemoteAddress.trans Socket.holding_getLocalAddress
            have sound : (sock.init call.newsock call.number named peer).Sound := by
              apply Socket.Sound.getRemoteAddress
              apply Socket.Sound.getLocalAddress
              exact fun _ => ⟨rfl, fun _ => rfl⟩
            refine ⟨?_, inv.numbered, ?_⟩
            · change Owned (State.put (s.make.finish t) s.made (some
                (sock.init call.newsock call.number named peer))).holder s.handle
              rw [holder_put, holder_finish]
              change Owned (Function.update _ _
                (sock.init call.newsock call.number named peer).holding) s.handle
              rw [holding]
              exact inv.owned.pass held inv.unmade
            · apply inv.objects.make.put (Nat.lt_succ_self _)
              intro other now
              cases now
              exact sound
      · refine ⟨?_, inv.numbered, inv.objects⟩
        rw [holder_lose, holder_finish]
        exact inv.owned.pass held (inv.unlost held)

end Inv

omit [DecidableEq T] [DecidableEq D] in
theorem of_idle (idle : s.idle i = some sock) :
    s.object i = some sock ∧ sock.closing = false := by
  obtain ⟨object, still_open⟩ := Option.filter_eq_some_iff.mp idle
  exact ⟨object, Bool.not_eq_true' _ |>.mp still_open⟩

/-- What a step does that works on an object, and with which it opens a socket. -/
theorem Inv.opened (inv : s.Inv) (object : s.object i = some sock) {change : Socket A D}
    (same : change.holding = sock.holding) (still : change.closing = false)
    (sound : change.Sound) {opened : Opened D} {new : Socket A D}
    (taken : s.newSock hook change opened = some (next, new)) :
    (next.put i (some new)).Inv ∧ (next.put i (some new)).object i = some new ∧
      new.closing = false := by
  obtain ⟨made, -, still_open, -⟩ := inv.newSock (inv.objects.there object)
    (same.trans (holder_object object).symm) still sound taken
  exact ⟨made, Function.update_self .., still_open⟩

theorem Inv.step (inv : s.Inv) {action : Action T A D}
    (taken : s.step getFamily action = some next) : next.Inv := by
  cases action with
  | createTCP family =>
      cases taken
      exact inv.make.put (Nat.lt_succ_self _) inv.unmade.symm fun connected => by
        cases connected
  | createUDP hook family opened =>
      obtain ⟨⟨middle, new⟩, made, rfl⟩ := Option.map_eq_some_iff.mp taken
      let before : Socket A D := { m_family := family, m_type := .UDP }
      have disconnected : before.Sound := fun connected => by cases connected
      have nothing : before.holding = s.make.holder (.object s.made) := inv.unmade.symm
      obtain ⟨there, below, idle, type⟩ :=
        inv.make.newSock (Nat.lt_succ_self _) nothing rfl disconnected made
      have now : (middle.put s.made (some new)).object s.made = some new :=
        Function.update_self ..
      let after : Socket A D := { new with m_isConnected := true }
      have sound : after.Sound := by
        refine fun _ => ⟨idle, fun tcp => ?_⟩
        cases type.symm.trans tcp
      have again : ((middle.put s.made (some new)).put s.made (some after)).Inv :=
        there.put below (holder_object now).symm sound
      rw [put_put] at again
      exact again
  | bind hook i addr opened bound named =>
      obtain ⟨sock, idle, taken⟩ := Option.bind_eq_some_iff.mp taken
      obtain ⟨⟨middle, new⟩, made, taken⟩ := Option.bind_eq_some_iff.mp taken
      cases taken
      obtain ⟨object, still_open⟩ := of_idle idle
      obtain ⟨there, now, -⟩ := inv.opened object rfl still_open
        (inv.objects.sound i sock object) made
      have after : (State.bind getFamily (middle.put i (some new)) i new addr bound
          named).Inv := there.bind now addr bound named
      rw [bind_put] at after
      exact after
  | connect hook i addr opened connected named =>
      obtain ⟨sock, idle, taken⟩ := Option.bind_eq_some_iff.mp taken
      obtain ⟨⟨middle, new⟩, made, taken⟩ := Option.bind_eq_some_iff.mp taken
      cases taken
      obtain ⟨object, still_open⟩ := of_idle idle
      let asked : Socket A D := { sock with m_remoteAddress := some addr }
      have same : asked.holding = sock.holding := rfl
      obtain ⟨there, now, still⟩ := inv.opened object same still_open
        (inv.objects.sound i sock object) made
      have after : (State.connect getFamily (middle.put i (some new)) hook i new addr
          connected named).Inv := there.connect now still addr connected named
      rw [connect_put] at after
      exact after
  | reconnect hook i opened connected named =>
      obtain ⟨sock, idle, taken⟩ := Option.bind_eq_some_iff.mp taken
      obtain ⟨object, still_open⟩ := of_idle idle
      cases remote : sock.m_remoteAddress with
      | none =>
          rw [remote] at taken
          cases taken
          exact inv
      | some addr =>
          rw [remote] at taken
          obtain ⟨⟨middle, new⟩, made, taken⟩ := Option.bind_eq_some_iff.mp taken
          cases taken
          let unnamed : Socket A D :=
            { sock with m_localAddress := none, m_remoteAddress := some addr }
          have same : unnamed.holding = sock.holding := rfl
          obtain ⟨there, now, still⟩ := inv.opened object same still_open
            (inv.objects.sound i sock object) made
          have after : (State.connect getFamily (middle.put i (some new)) hook i new addr
              connected named).Inv := there.connect now still addr connected named
          rw [connect_put] at after
          exact after
  | checkConnected i answered =>
      obtain ⟨sock, idle, rfl⟩ := Option.map_eq_some_iff.mp taken
      obtain ⟨object, still_open⟩ := of_idle idle
      exact inv.put (inv.objects.there object) (holder_object object).symm fun connected =>
        ⟨still_open, fun _ => (Bool.and_eq_true_iff.mp connected).1⟩
  | getLocalAddress i named =>
      obtain ⟨sock, idle, rfl⟩ := Option.map_eq_some_iff.mp taken
      obtain ⟨object, -⟩ := of_idle idle
      exact inv.put (inv.objects.there object)
        (Socket.holding_getLocalAddress.trans (holder_object object).symm)
        (inv.objects.sound i sock object).getLocalAddress
  | getRemoteAddress i peer =>
      obtain ⟨sock, idle, rfl⟩ := Option.map_eq_some_iff.mp taken
      obtain ⟨object, -⟩ := of_idle idle
      exact inv.put (inv.objects.there object)
        (Socket.holding_getRemoteAddress.trans (holder_object object).symm)
        (inv.objects.sound i sock object).getRemoteAddress
  | close hook i =>
      obtain ⟨sock, idle, rfl⟩ := Option.map_eq_some_iff.mp taken
      obtain ⟨object, still_open⟩ := of_idle idle
      exact inv.close object still_open
  | closed i =>
      obtain ⟨sock, object, closing, rfl⟩ := of_closed taken
      have nothing : sock.holding = none := if_pos closing
      refine inv.put (inv.objects.there object)
        (nothing.symm.trans (holder_object object).symm) fun connected => ?_
      have idle := (inv.objects.sound i sock object connected).1
      rw [closing] at idle
      cases idle
  | destroy hook i =>
      obtain ⟨sock, idle, rfl⟩ := Option.map_eq_some_iff.mp taken
      obtain ⟨object, still_open⟩ := of_idle idle
      cases valid : sock.m_sock with
      | none =>
          have nothing : s.holder (.object i) = none := by
            rw [holder_object object, Socket.holding, valid, still_open]
            rfl
          refine ⟨?_, inv.numbered, inv.objects.put (inv.objects.there object) ?_⟩
          · change Owned (s.put i none).holder s.handle
            rw [holder_put]
            change Owned (Function.update s.holder _ none) s.handle
            rw [← nothing, Function.update_eq_self]
            exact inv.owned
          · intro other now
            cases now
      | some fd =>
          have holding : sock.holding = some (fd, sock.given) := by
            rw [Socket.holding, valid, still_open]
            rfl
          apply inv.closes object holding rfl
          intro other now
          cases now
  | accept hook t i fd isSocket =>
      obtain ⟨sock, ready, object, free, rfl⟩ := of_accept taken
      exact inv.enter ready free isSocket sock.m_family sock.m_type
  | answer hook t answer =>
      obtain ⟨call, accepting, rfl⟩ := Option.map_eq_some_iff.mp taken
      exact inv.answer accepting answer

/-- Nothing is open, and there are no objects. -/
structure Initial (s : State T A D) : Prop where
  handle : ∀ fd, s.handle fd = none
  datas : ∀ fd, s.datas fd = none
  object : ∀ i, s.object i = none
  accepting : ∀ t, s.accepting t = none
  lost : ∀ k, s.lost k = none

omit [DecidableEq T] [DecidableEq D] in
theorem Initial.inv (initial : s.Initial) : s.Inv := by
  have nothing (holder : Holder T) : s.holder holder = none := by
    cases holder with
    | object i => exact congrArg (Option.bind · _) (initial.object i)
    | accept t => exact congrArg (Option.map _) (initial.accepting t)
    | lost k => exact congrArg (Option.map _) (initial.lost k)
  refine ⟨?_, ⟨?_, ?_⟩, ⟨fun i _ => initial.object i, ?_⟩⟩
  · rw [funext nothing, funext initial.handle]
    exact .empty
  · intro fd k opened
    rw [initial.handle] at opened
    cases opened
  · intro fd other k opened
    rw [initial.handle] at opened
    cases opened
  · intro i sock object
    rw [initial.object] at object
    cases object

theorem Inv.run (reached : Reach Initial (StepOf (State.step getFamily)) s) : s.Inv :=
  reached.invariant (fun _ initial => initial.inv) fun _ _ _ inv taken => inv.step taken

variable (getFamily)

/-- Every open handle is held once: by one object, by one fiber in `accept`, or by nobody
who will close it. A connected object sends to and receives from the handle that it
holds, also while others are closed and their handles are given out again. -/
theorem handles_owned (reached : Reach Initial (StepOf (State.step getFamily)) s) :
    (∀ fd k, s.handle fd = some k → ∃! holder, s.holder holder = some (fd, k)) ∧
      (∀ holder fd k, s.holder holder = some (fd, k) → s.handle fd = some k) ∧
      ∀ i sock, s.object i = some sock → sock.m_isConnected = true →
        (∃ fd, sock.used = some fd ∧ s.holder (.object i) = some (fd, sock.given)) ∨
          sock.m_type = .UDP ∧ sock.used = none := by
  have inv := Inv.run reached
  refine ⟨fun fd k opened => inv.owned.existsUnique opened, inv.owned.live_of_held, ?_⟩
  intro i sock object connected
  obtain ⟨idle, valid⟩ := inv.objects.sound i sock object connected
  have used : sock.used = sock.m_sock := if_pos connected
  rw [holder_object object, Socket.holding, idle, used]
  cases opened : sock.m_sock with
  | some fd => exact .inl ⟨fd, rfl, rfl⟩
  | none =>
      refine .inr ⟨?_, rfl⟩
      cases type : sock.m_type with
      | UDP => rfl
      | TCP =>
          have never := valid type
          rw [opened] at never
          cases never

variable {getFamily}

section Witness

def family (_ : Unit) : Int32 := 2

def unopened : State Unit Unit D where
  handle _ := none
  sockets := 0
  datas _ := none
  object _ := none
  made := 0
  accepting _ := none
  lost _ := none

omit [DecidableEq D] in
theorem unopened_initial : (unopened : State Unit Unit D).Initial := by
  constructor <;> intros <;> rfl

/-- The handle of an object that is being closed is given to another one. -/
def givenAgain : List (Action Unit Unit Unit) :=
  [.createTCP 2, .createTCP 2, .connect true 0 () (some ((), true)) true true,
    .close true 0, .connect true 1 () (some ((), true)) true true]

theorem handles_owned_again : ∃ (s : State Unit Unit Unit) (first second : Socket Unit Unit),
    s.object 0 = some first ∧ first.m_sock = some () ∧ first.used = none ∧
      s.object 1 = some second ∧ second.used = some () ∧
      ∃! holder, s.holder holder = some ((), 1) := by
  obtain ⟨s, first, second, ran, closing, other, live⟩ :
      ∃ (s : State Unit Unit Unit) (first second : Socket Unit Unit),
        exec (State.step family) unopened givenAgain = some s ∧
        (s.object 0 = some first ∧ first.m_sock = some () ∧ first.used = none) ∧
        (s.object 1 = some second ∧ second.used = some ()) ∧
        s.handle () = some 1 :=
    ⟨_, _, _, rfl, ⟨rfl, rfl, rfl⟩, ⟨rfl, rfl⟩, rfl⟩
  have reached := reach_exec (.start unopened unopened_initial) ran
  exact ⟨s, first, second, closing.1, closing.2.1, closing.2.2, other.1, other.2,
    (handles_owned family reached).1 () 1 live⟩

end Witness

end State

end Sylar.Sockets
