import Sylar.Server.Sockets

namespace Sylar.Sockets

open Logic

/-! What is left open when the objects are gone. -/

variable {T A D : Type}

/-- The thread has the hook, and the handle of a socket is known for one. -/
def Action.hooked : Action T A D → Bool
  | .createUDP hook _ opened => hook && opened.all Prod.snd
  | .bind hook _ _ opened _ _ => hook && opened.all Prod.snd
  | .connect hook _ _ opened _ _ => hook && opened.all Prod.snd
  | .reconnect hook _ opened _ _ => hook && opened.all Prod.snd
  | .close hook _ => hook
  | .destroy hook _ => hook
  | .accept hook _ _ _ isSocket => hook && isSocket
  | .answer hook _ _ => hook
  | _ => true

namespace State

variable [DecidableEq T] [DecidableEq D] {getFamily : A → Int32} {s next : State T A D}
  {i : Nat} {sock : Socket A D} {t : T}

def Hooked (_ : State T A D) (action : Action T A D) : Prop :=
  action.hooked = true

instance (s : State T A D) (action : Action T A D) : Decidable (s.Hooked action) :=
  inferInstanceAs (Decidable (_ = true))

/-- A handle has a `FdCtx` while it is open, and `accept` has lost none. -/
structure Registered (s : State T A D) : Prop where
  datas : ∀ fd, s.datas fd = (s.handle fd).map fun _ => true
  lost : ∀ k, s.lost k = none

namespace Registered

omit [DecidableEq T] in
theorem opens (registered : s.Registered) (free : s.handle fd = none) :
    (s.opens true fd true).Registered where
  datas other := by
    change Function.update s.datas fd (some ((s.datas fd).getD true)) other =
      (Function.update s.handle fd (some s.sockets) other).map _
    rw [Function.update_apply, Function.update_apply]
    split
    · rw [registered.datas fd, free]
      rfl
    · exact registered.datas other
  lost := registered.lost

omit [DecidableEq T] in
theorem closes (registered : s.Registered) (fd : D) : (s.closes true fd).Registered where
  datas other := by
    change Function.update s.datas fd none other =
      (Function.update s.handle fd none other).map _
    rw [Function.update_apply, Function.update_apply]
    split
    · rfl
    · exact registered.datas other
  lost := registered.lost

omit [DecidableEq T] [DecidableEq D] in
theorem put (registered : s.Registered) (o : Option (Socket A D)) :
    (s.put i o).Registered :=
  ⟨registered.datas, registered.lost⟩

omit [DecidableEq T] [DecidableEq D] in
theorem make (registered : s.Registered) : s.make.Registered :=
  ⟨registered.datas, registered.lost⟩

omit [DecidableEq T] in
theorem newSock (registered : s.Registered) {opened : Opened D} {new : Socket A D}
    (known : opened.all Prod.snd = true)
    (taken : s.newSock true sock opened = some (next, new)) : next.Registered := by
  rcases of_newSock taken with ⟨fd, isSocket, -, rfl, free, rfl, -⟩ | ⟨rfl, -⟩
  · have real : isSocket = true := known
    exact real ▸ registered.opens free
  · exact registered

omit [DecidableEq T] in
theorem close (registered : s.Registered) : (s.close true i sock).Registered := by
  unfold State.close
  split
  · exact registered.put _
  · exact (registered.closes _).put _

omit [DecidableEq T] in
theorem connect (registered : s.Registered) (addr : A) (connected named : Bool) :
    (s.connect getFamily true i sock addr connected named).Registered := by
  unfold State.connect
  split
  · split
    · exact registered.put _
    · exact registered.close
  · exact registered.put _

theorem answer (registered : s.Registered) {call : Accept D}
    (live : s.handle call.newsock = some call.number) (answer : Answer A) :
    (s.answer true t call answer).Registered := by
  have closed : ((s.closes true call.newsock).finish t).Registered :=
    ⟨(registered.closes _).datas, registered.lost⟩
  have known : s.datas call.newsock = some true := by
    rw [registered.datas, live]
    rfl
  cases answer with
  | failed => exact closed
  | accepted handshake named peer =>
      change (if s.datas call.newsock = some true then _ else _ : State T A D).Registered
      rw [if_pos known]
      cases handshake with
      | false => exact closed
      | true => exact ⟨registered.datas, registered.lost⟩

theorem step (registered : s.Registered) (inv : s.Inv) {action : Action T A D}
    (hooked : Hooked s action) (taken : s.step getFamily action = some next) :
    next.Registered := by
  cases action with
  | createTCP family =>
      cases taken
      exact registered.make.put _
  | createUDP hook family opened =>
      obtain ⟨rfl, known⟩ := Bool.and_eq_true_iff.mp hooked
      obtain ⟨⟨middle, new⟩, made, rfl⟩ := Option.map_eq_some_iff.mp taken
      exact (registered.make.newSock known made).put _
  | bind hook i addr opened bound named =>
      obtain ⟨rfl, known⟩ := Bool.and_eq_true_iff.mp hooked
      obtain ⟨sock, idle, taken⟩ := Option.bind_eq_some_iff.mp taken
      obtain ⟨⟨middle, new⟩, made, taken⟩ := Option.bind_eq_some_iff.mp taken
      cases taken
      exact (registered.newSock known made).put _
  | connect hook i addr opened connected named =>
      obtain ⟨rfl, known⟩ := Bool.and_eq_true_iff.mp hooked
      obtain ⟨sock, idle, taken⟩ := Option.bind_eq_some_iff.mp taken
      obtain ⟨⟨middle, new⟩, made, taken⟩ := Option.bind_eq_some_iff.mp taken
      cases taken
      exact (registered.newSock known made).connect addr connected named
  | reconnect hook i opened connected named =>
      obtain ⟨rfl, known⟩ := Bool.and_eq_true_iff.mp hooked
      obtain ⟨sock, idle, taken⟩ := Option.bind_eq_some_iff.mp taken
      cases remote : sock.m_remoteAddress with
      | none =>
          rw [remote] at taken
          cases taken
          exact registered
      | some addr =>
          rw [remote] at taken
          obtain ⟨⟨middle, new⟩, made, taken⟩ := Option.bind_eq_some_iff.mp taken
          cases taken
          exact (registered.newSock known made).connect addr connected named
  | checkConnected i answered =>
      obtain ⟨sock, idle, rfl⟩ := Option.map_eq_some_iff.mp taken
      exact registered.put _
  | getLocalAddress i named =>
      obtain ⟨sock, idle, rfl⟩ := Option.map_eq_some_iff.mp taken
      exact registered.put _
  | getRemoteAddress i peer =>
      obtain ⟨sock, idle, rfl⟩ := Option.map_eq_some_iff.mp taken
      exact registered.put _
  | close hook i =>
      cases hooked
      obtain ⟨sock, idle, rfl⟩ := Option.map_eq_some_iff.mp taken
      exact registered.close
  | closed i =>
      obtain ⟨sock, object, closing, rfl⟩ := of_closed taken
      exact registered.put _
  | destroy hook i =>
      cases hooked
      obtain ⟨sock, idle, rfl⟩ := Option.map_eq_some_iff.mp taken
      cases sock.m_sock with
      | none => exact registered.put none
      | some fd => exact (registered.closes fd).put none
  | accept hook t i fd isSocket =>
      obtain ⟨rfl, rfl⟩ := Bool.and_eq_true_iff.mp hooked
      obtain ⟨sock, ready, object, free, rfl⟩ := of_accept taken
      exact ⟨(registered.opens free).datas, registered.lost⟩
  | answer hook t answer =>
      cases hooked
      obtain ⟨call, accepting, rfl⟩ := Option.map_eq_some_iff.mp taken
      have live := inv.owned.live_of_held _ _ _ (holder_accept accepting)
      exact registered.answer live answer

theorem run (reached : Reach Initial (StepWhen (State.step getFamily) Hooked) s) :
    s.Registered := by
  induction reached with
  | start s initial =>
      refine ⟨fun fd => ?_, initial.lost⟩
      rw [initial.datas, initial.handle]
      rfl
  | step s action next reached taken ih =>
      exact ih.step (Inv.run reached.all) taken.1 taken.2

end Registered

/-- With the hook nothing leaks: when the objects are destroyed and no fiber is in
`accept`, every handle is closed, and none has a `FdCtx`. -/
theorem nothing_leaks (reached : Reach Initial (StepWhen (State.step getFamily) Hooked) s)
    (destroyed : ∀ i, s.object i = none) (returned : ∀ t, s.accepting t = none) (fd : D) :
    s.handle fd = none ∧ s.datas fd = none := by
  have inv := Inv.run reached.all
  have registered := Registered.run reached
  have closed : s.handle fd = none := by
    apply inv.owned.dead
    intro holder
    cases holder with
    | object i => exact congrArg (Option.bind · _) (destroyed i)
    | accept t => exact congrArg (Option.map _) (returned t)
    | lost k => exact congrArg (Option.map _) (registered.lost k)
  refine ⟨closed, ?_⟩
  rw [registered.datas, closed]
  rfl

section Witness

/-- A client is accepted while the listening object is closed and destroyed. -/
def served : List (Action Unit Unit Bool) :=
  [.createTCP 2, .bind true 0 () (some (false, true)) true true,
    .accept true () 0 true true, .close true 0, .closed 0,
    .answer true () (.accepted true true none), .destroy true 0, .destroy true 1]

theorem nothing_leaks_served : ∃ s : State Unit Unit Bool,
    s.sockets = 2 ∧ s.handle false = none ∧ s.handle true = none ∧ s.datas true = none := by
  obtain ⟨s, ran, opened, made, gone, left⟩ :
      ∃ s, exec (guarded (State.step family) Hooked) unopened served = some s ∧
        s.sockets = 2 ∧ s.made = 2 ∧ (s.object 0 = none ∧ s.object 1 = none) ∧
        s.accepting () = none :=
    ⟨_, rfl, rfl, rfl, ⟨rfl, rfl⟩, rfl⟩
  have reached := reach_guarded (.start unopened unopened_initial) ran
  have destroyed (i : Nat) : s.object i = none := by
    by_cases later : 2 ≤ i
    · exact (Inv.run reached.all).objects.made i (made ▸ later)
    · have low : i = 0 ∨ i = 1 := by omega
      rcases low with rfl | rfl
      · exact gone.1
      · exact gone.2
  have closed (fd : Bool) := nothing_leaks reached destroyed (fun _ => left) fd
  exact ⟨s, opened, (closed false).1, (closed true)⟩

end Witness

end State

end Sylar.Sockets
