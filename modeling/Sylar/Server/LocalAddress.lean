import Sylar.Server.Sockets

namespace Sylar.Sockets

open Logic

/-! Whose name the local address of an object is. `getLocalAddress` keeps what it was
told; of the calls that open a socket only `reconnect` forgets it. -/

variable {T A D : Type}

namespace Socket

/-- The address is that of the socket that the object was last given. -/
def Told (sock : Socket A D) : Prop :=
  ∀ k, sock.m_localAddress = some k → sock.given = k

variable {sock : Socket A D}

theorem Told.getLocalAddress (told : sock.Told) (named : Bool) :
    (sock.getLocalAddress named).Told := by
  unfold Socket.getLocalAddress
  split
  · split
    · intro k now
      exact Option.some.inj now
    · exact told
  · exact told

theorem Told.getRemoteAddress (told : sock.Told) (peer : Option A) :
    (sock.getRemoteAddress peer).Told := by
  unfold Socket.getRemoteAddress
  split
  · exact told
  · exact told

theorem told_of_none (unnamed : sock.m_localAddress = none) : sock.Told := by
  intro k now
  rw [unnamed] at now
  cases now

theorem told_init (unnamed : sock.m_localAddress = none) (newsock : D) (number : Nat)
    (named : Bool) (peer : Option A) : (sock.init newsock number named peer).Told := by
  have before : ({ sock with m_sock := some newsock, given := number
                             m_isConnected := true } : Socket A D).Told :=
    told_of_none unnamed
  exact (before.getLocalAddress named).getRemoteAddress peer

end Socket

namespace State

variable [DecidableEq T] [DecidableEq D] {getFamily : A → Int32} {s next : State T A D}
  {i : Nat} {sock : Socket A D} {hook : Bool}

/-- An object that has no socket has no local address either. -/
def forgotten (s : State T A D) (i : Nat) : Bool :=
  (s.object i).all fun sock => sock.m_sock.isSome || sock.m_localAddress.isNone

/-- An object without a socket that still has a local address is not bound or connected,
but reconnected. -/
def reopens (s : State T A D) : Action T A D → Bool
  | .bind _ i _ _ _ _ => s.forgotten i
  | .connect _ i _ _ _ _ => s.forgotten i
  | _ => true

def Reopens (s : State T A D) (action : Action T A D) : Prop :=
  s.reopens action = true

instance (s : State T A D) (action : Action T A D) : Decidable (s.Reopens action) :=
  inferInstanceAs (Decidable (_ = true))

omit [DecidableEq T] [DecidableEq D] in
theorem of_forgotten (forgotten : s.forgotten i = true) (object : s.object i = some sock)
    (invalid : sock.m_sock = none) : sock.m_localAddress = none := by
  unfold State.forgotten at forgotten
  rw [object] at forgotten
  rcases Bool.or_eq_true_iff.mp forgotten with valid | unnamed
  · rw [invalid] at valid
    cases valid
  · exact Option.isNone_iff_eq_none.mp unnamed

def Told (s : State T A D) : Prop :=
  ∀ i sock, s.object i = some sock → sock.Told

namespace Told

omit [DecidableEq T] [DecidableEq D] in
theorem put (told : s.Told) {o : Option (Socket A D)}
    (own : ∀ sock, o = some sock → sock.Told) : (s.put i o).Told := by
  intro j sock now
  change Function.update s.object i o j = some sock at now
  rw [Function.update_apply] at now
  split at now
  · exact own sock now
  · exact told j sock now

omit [DecidableEq T] [DecidableEq D] in
theorem put_some (told : s.Told) (own : sock.Told) : (s.put i (some sock)).Told := by
  apply told.put
  intro other now
  cases now
  exact own

omit [DecidableEq T] in
theorem newSock (told : s.Told) (own : sock.Told)
    (forgotten : sock.m_sock = none → sock.m_localAddress = none) {opened : Opened D}
    {new : Socket A D} (taken : s.newSock hook sock opened = some (next, new)) :
    next.Told ∧ new.Told := by
  rcases of_newSock taken with ⟨fd, isSocket, invalid, -, -, rfl, rfl⟩ | ⟨rfl, rfl⟩
  · exact ⟨told, Socket.told_of_none (forgotten invalid)⟩
  · exact ⟨told, own⟩

omit [DecidableEq T] in
theorem close (told : s.Told) (own : sock.Told) : (s.close hook i sock).Told := by
  unfold State.close
  split
  · exact told.put_some own
  · have closed : ∀ fd, (s.closes hook fd).Told := fun _ => told
    exact (closed _).put_some own

omit [DecidableEq T] in
theorem connect (told : s.Told) (own : sock.Told) (addr : A) (connected named : Bool) :
    (s.connect getFamily hook i sock addr connected named).Told := by
  unfold State.connect
  split
  · split
    · have live : ({ sock with m_isConnected := true } : Socket A D).Told := own
      exact told.put_some (live.getLocalAddress named)
    · exact told.close own
  · exact told.put_some own

theorem answer (told : s.Told) {t : T} {call : Accept D} (answer : Answer A) :
    (s.answer hook t call answer).Told := by
  cases answer with
  | failed => exact told
  | accepted handshake named peer =>
      change (if s.datas call.newsock = some true then _ else _ : State T A D).Told
      split
      · cases handshake with
        | false => exact told
        | true =>
            have made : (s.make.finish t).Told := told
            exact made.put_some (Socket.told_init rfl call.newsock call.number named peer)
      · exact told

theorem step (told : s.Told) {action : Action T A D} (reopens : s.Reopens action)
    (taken : s.step getFamily action = some next) : next.Told := by
  cases action with
  | createTCP family =>
      cases taken
      have made : s.make.Told := told
      exact made.put_some (Socket.told_of_none rfl)
  | createUDP hook family opened =>
      obtain ⟨⟨middle, new⟩, made, rfl⟩ := Option.map_eq_some_iff.mp taken
      have before : s.make.Told := told
      obtain ⟨there, own⟩ := before.newSock (Socket.told_of_none rfl) (fun _ => rfl) made
      exact there.put_some own
  | bind hook i addr opened bound named =>
      obtain ⟨sock, idle, taken⟩ := Option.bind_eq_some_iff.mp taken
      obtain ⟨⟨middle, new⟩, made, taken⟩ := Option.bind_eq_some_iff.mp taken
      cases taken
      obtain ⟨object, -⟩ := of_idle idle
      obtain ⟨there, own⟩ := told.newSock (told i sock object)
        (of_forgotten reopens object) made
      unfold State.bind
      apply there.put_some
      split
      · exact own.getLocalAddress named
      · exact own
  | connect hook i addr opened connected named =>
      obtain ⟨sock, idle, taken⟩ := Option.bind_eq_some_iff.mp taken
      obtain ⟨⟨middle, new⟩, made, taken⟩ := Option.bind_eq_some_iff.mp taken
      cases taken
      obtain ⟨object, -⟩ := of_idle idle
      have asked : ({ sock with m_remoteAddress := some addr } : Socket A D).Told :=
        told i sock object
      have forgotten : sock.m_sock = none → sock.m_localAddress = none :=
        of_forgotten reopens object
      obtain ⟨there, own⟩ := told.newSock asked forgotten made
      exact there.connect own addr connected named
  | reconnect hook i opened connected named =>
      obtain ⟨sock, idle, taken⟩ := Option.bind_eq_some_iff.mp taken
      cases remote : sock.m_remoteAddress with
      | none =>
          rw [remote] at taken
          cases taken
          exact told
      | some addr =>
          rw [remote] at taken
          obtain ⟨⟨middle, new⟩, made, taken⟩ := Option.bind_eq_some_iff.mp taken
          cases taken
          -- m_localAddress.reset()
          obtain ⟨there, own⟩ := told.newSock (Socket.told_of_none rfl) (fun _ => rfl) made
          exact there.connect own addr connected named
  | checkConnected i answered =>
      obtain ⟨sock, idle, rfl⟩ := Option.map_eq_some_iff.mp taken
      have own := told i sock (of_idle idle).1
      exact told.put_some own
  | getLocalAddress i named =>
      obtain ⟨sock, idle, rfl⟩ := Option.map_eq_some_iff.mp taken
      have own := told i sock (of_idle idle).1
      exact told.put_some (own.getLocalAddress named)
  | getRemoteAddress i peer =>
      obtain ⟨sock, idle, rfl⟩ := Option.map_eq_some_iff.mp taken
      have own := told i sock (of_idle idle).1
      exact told.put_some (own.getRemoteAddress peer)
  | close hook i =>
      obtain ⟨sock, idle, rfl⟩ := Option.map_eq_some_iff.mp taken
      exact told.close (told i sock (of_idle idle).1)
  | closed i =>
      obtain ⟨sock, object, closing, rfl⟩ := of_closed taken
      have own := told i sock object
      exact told.put_some own
  | destroy hook i =>
      obtain ⟨sock, idle, rfl⟩ := Option.map_eq_some_iff.mp taken
      have closed : ∀ fd, (s.closes hook fd).Told := fun _ => told
      cases sock.m_sock with
      | none =>
          apply told.put
          intro other now
          cases now
      | some fd =>
          apply (closed fd).put
          intro other now
          cases now
  | accept hook t i fd isSocket =>
      obtain ⟨sock, ready, object, free, rfl⟩ := of_accept taken
      exact told
  | answer hook t answer =>
      obtain ⟨call, accepting, rfl⟩ := Option.map_eq_some_iff.mp taken
      exact told.answer answer

theorem run (reached : Reach Initial (StepWhen (State.step getFamily) Reopens) s) :
    s.Told := by
  apply reached.invariant
  · intro s initial i sock object
    rw [initial.object] at object
    cases object
  · intro s action next told taken
    exact told.step taken.1 taken.2

end Told

/-- A local address is the name of the very socket that the object has open. -/
theorem local_address_own (reached : Reach Initial (StepWhen (State.step getFamily) Reopens) s)
    (object : s.object i = some sock) (idle : sock.closing = false) {fd : D}
    (valid : sock.m_sock = some fd) {k : Nat} (told : sock.m_localAddress = some k) :
    s.handle fd = some k := by
  have given : sock.given = k := Told.run reached i sock object k told
  apply (Inv.run reached.all).owned.live_of_held (.object i)
  rw [holder_object object, Socket.holding, idle, valid, ← given]
  rfl

section Witness

/-- A connection that is closed and made again, with the handle taken in between. -/
def renewed : List (Action Unit Unit Bool) :=
  [.createTCP 2, .createTCP 2, .connect true 0 () (some (false, true)) true true,
    .close true 0, .closed 0, .connect true 1 () (some (false, true)) true true,
    .reconnect true 0 (some (true, true)) true true]

theorem local_address_own_renewed : ∃ (s : State Unit Unit Bool) (sock : Socket Unit Bool),
    s.object 0 = some sock ∧ sock.m_localAddress = some 2 ∧ s.handle true = some 2 := by
  obtain ⟨s, sock, ran, object, idle, valid, told⟩ :
      ∃ (s : State Unit Unit Bool) (sock : Socket Unit Bool),
        exec (guarded (State.step family) Reopens) unopened renewed = some s ∧
        s.object 0 = some sock ∧ sock.closing = false ∧ sock.m_sock = some true ∧
        sock.m_localAddress = some 2 :=
    ⟨_, _, rfl, rfl, rfl, rfl, rfl⟩
  have reached := reach_guarded (.start unopened unopened_initial) ran
  exact ⟨s, sock, object, told, local_address_own reached object idle valid told⟩

/-- A connection that is closed and made again without `reconnect`. -/
def stale : List (Action Unit Unit Bool) :=
  [.createTCP 2, .connect true 0 () (some (false, true)) true true, .close true 0,
    .closed 0, .connect true 0 () (some (true, true)) true true]

/-- It tells the address of the socket that is closed. -/
example : (exec (State.step family) unopened stale).any (fun s =>
    (s.object 0).any fun sock =>
      sock.m_localAddress = some 0 && s.handle true = some 1) = true := by
  decide

end Witness

end State

end Sylar.Sockets
