import Sylar.Rock.Journey

namespace Sylar

open Logic Data AsyncSocketStream RockMessageDecoder

namespace Exchange

/-! Every step of an exchange keeps its plan. -/

variable {R A : Type} [DecidableEq R] [DecidableEq A]

/-- Both ends are open and the network is there. -/
def alive (s : Exchange R A) : Bool :=
  s.client.connected && s.server.connected && !s.lost

/-- What the run is given is within the limits of both ends, and the numbers of
the requests are distinct. -/
structure Setting.Sound (setting : Setting R A) : Prop where
  distinct : Function.Injective setting.sn
  requests : ∀ r, Deliverable setting.host setting.client setting.server
    (setting.request r)
  responses : ∀ r, Deliverable setting.host setting.server setting.client
    (.response (setting.answer r))

structure Inv (setting : Setting R A) (s : Exchange R A) (plan : Plan R) :
    Prop where
  places : Places (fun r => sent (s.base.request r)) s.base.ctxs s.alive
    s.client.outbox.items plan
  wire : Carries setting.host (plan.wire.map setting.request)
    s.client.pipe.transit s.lost
  tasks : s.tasks = plan.tasks.map setting.issued
  handled : s.handled = plan.handled.map setting.issued
  replies : s.server.outbox.items = plan.replies.map setting.answer
  back : Carries setting.host
    (plan.back.map fun r => .response (setting.answer r))
    s.server.pipe.transit s.lost
  clientRuns : s.client.crashed = false
  serverRuns : s.server.crashed = false
  clientAwake : s.client.outbox.Awake
  serverAwake : s.server.outbox.Awake

/-! What the steps of the base do to it. -/

section Base

variable {sn : R → UInt32} {b next : State R A} {r : R}

omit [DecidableEq A] in
theorem request_effect (taken : AsyncSocketStream.request sn b r = some next) :
    (b.request r = .addCtx ∧ next.ctxs = addCtx sn b.ctxs r ∧
        ∀ other, sent (next.request other) = sent (b.request other)) ∨
      (b.request r = .enqueue ∧ next.ctxs = b.ctxs ∧
        (fun other => sent (next.request other)) =
          Function.update (fun other => sent (b.request other)) r true) ∨
      (b.request r ≠ .enqueue ∧ next.ctxs = b.ctxs ∧
        ∀ other, sent (next.request other) = sent (b.request other)) := by
  have moved : ∀ (middle : State R A) (target : AsyncSocketStream.Request),
      middle.request = b.request → sent target = sent (b.request r) →
      ∀ other, sent ((middle.setRequest r target).request other) =
        sent (b.request other) := by
    intro middle target same kept other
    change sent (Function.update middle.request r target other) = _
    rcases eq_or_ne other r with rfl | different
    · rw [Function.update_self, kept]
    · rw [Function.update_of_ne different, same]
  cases place : b.request r with
  | addCtx =>
      simp only [AsyncSocketStream.request, place] at taken
      cases taken
      exact .inl ⟨rfl, rfl, moved _ _ rfl (by rw [place]; rfl)⟩
  | enqueue =>
      simp only [AsyncSocketStream.request, place] at taken
      cases taken
      refine .inr (.inl ⟨rfl, rfl, ?_⟩)
      funext other
      exact Function.apply_update (fun _ => sent) b.request r .yieldToHold other
  | yieldToHold =>
      simp only [AsyncSocketStream.request, place] at taken
      split at taken
      · cases taken
        exact .inr (.inr ⟨by simp, rfl, moved _ _ rfl (by rw [place]; rfl)⟩)
      · cases taken
  | finished result =>
      simp only [AsyncSocketStream.request, place] at taken
      cases taken
  | _ =>
      simp only [AsyncSocketStream.request, place] at taken
      cases taken
      exact .inr (.inr ⟨by simp, rfl, moved _ _ rfl (by rw [place]; rfl)⟩)

omit [DecidableEq R] in
theorem doRecv_effect (party : A) (rsp : RockResponse) :
    (doRecv sn b party rsp).request = b.request ∧
      (∀ r ∈ (doRecv sn b party rsp).ctxs, r ∈ b.ctxs) ∧
      ∀ r, sn r = rsp.sn → r ∉ (doRecv sn b party rsp).ctxs := by
  unfold doRecv
  cases found : getCtx sn b.ctxs rsp.sn with
  | none =>
      refine ⟨rfl, fun _ member => member, ?_⟩
      intro r number member
      have absent := List.find?_eq_none.mp found r member
      simp [number] at absent
  | some current =>
      refine ⟨rfl, eraseCtx_subset, ?_⟩
      intro r number member
      have kept := (List.mem_filter.mp member).2
      simp [number] at kept

theorem work_request {party : A} (taken : work sn b party = some next) :
    next.request = b.request := by
  unfold work at taken
  split at taken
  · cases taken
  · cases taken
    rfl
  · rename_i r stage rest _
    cases taken
    cases stage <;> rfl

end Base

variable {setting : Setting R A} {s t : Exchange R A} {plan : Plan R}

omit [DecidableEq A] in
/-- A step of the base that takes no context in and issues no request. -/
theorem Inv.base (inv : Inv setting s plan) {base : State R A}
    (request : base.request = s.base.request)
    (subset : ∀ r ∈ base.ctxs, r ∈ s.base.ctxs) :
    Inv setting { s with base := base } plan where
  places := by
    change Places (fun r => sent (base.request r)) base.ctxs s.alive _ plan
    rw [request]
    exact inv.places.shrink subset
  wire := inv.wire
  tasks := inv.tasks
  handled := inv.handled
  replies := inv.replies
  back := inv.back
  clientRuns := inv.clientRuns
  serverRuns := inv.serverRuns
  clientAwake := inv.clientAwake
  serverAwake := inv.serverAwake

omit [DecidableEq A] in
theorem Inv.request (inv : Inv setting s plan) {r : R}
    (taken : request setting s r = some t) : Inv setting t plan := by
  obtain ⟨base, moved, rfl⟩ := Option.map_eq_some_iff.mp taken
  obtain ⟨place, ctxs, kept⟩ | ⟨place, ctxs, issued⟩ | ⟨place, ctxs, kept⟩ :=
    request_effect moved
  · have unsent : sent (s.base.request r) = false := by
      rw [place]
      rfl
    rw [if_neg (by simp [place])]
    refine { inv with places := ?_ }
    change Places (fun r => sent (base.request r)) base.ctxs s.alive _ plan
    rw [funext kept, ctxs]
    refine inv.places.add unsent ?_
    intro other member
    unfold addCtx at member
    split at member
    · exact .inr member
    · exact List.mem_cons.mp member
  · have unsent : sent (s.base.request r) = false := by
      rw [place]
      rfl
    rw [if_pos place]
    refine { inv with places := ?_, clientAwake := inv.clientAwake.enqueue r }
    change Places (fun r => sent (base.request r)) base.ctxs s.alive
      (s.client.outbox.enqueue r).items plan
    rw [issued, ctxs, Outbox.items_enqueue]
    exact inv.places.enqueue unsent
  · rw [if_neg place]
    refine { inv with places := ?_ }
    change Places (fun r => sent (base.request r)) base.ctxs s.alive _ plan
    rw [funext kept, ctxs]
    exact inv.places

theorem Inv.innerClose (inv : Inv setting s plan) {party : A} {order : List R}
    {base : State R A} (closed : s.client.connected = false)
    (moved : AsyncSocketStream.step setting.sn s.base (.innerClose party order) =
      some base) :
    Inv setting { s with base := base, client := s.client.innerClose } plan := by
  simp only [AsyncSocketStream.step] at moved
  split at moved
  · cases moved
    refine { inv with places := ?_, clientAwake := Outbox.Awake.close }
    have dead : s.alive = false := by simp [alive, closed]
    have places := (inv.places.lose Outbox.items_close
      (List.Sublist.refl _)).shrink (List.nil_subset s.base.ctxs)
    rw [← dead] at places
    exact places
  · cases moved

omit [DecidableEq A] in
theorem Inv.clientNotify (inv : Inv setting s plan) {outbox : Outbox R}
    (notified : s.client.outbox.notify = some outbox) :
    Inv setting { s with client := { s.client with outbox := outbox } } plan := by
  refine { inv with places := ?_, clientAwake := Outbox.awake_notify notified }
  have places := inv.places
  rw [← Outbox.items_notify notified] at places
  exact places

omit [DecidableEq A] in
theorem Inv.serverNotify (inv : Inv setting s plan)
    {outbox : Outbox RockResponse}
    (notified : s.server.outbox.notify = some outbox) :
    Inv setting { s with server := { s.server with outbox := outbox } } plan :=
  { inv with
    replies := (Outbox.items_notify notified).trans inv.replies
    serverAwake := Outbox.awake_notify notified }

omit [DecidableEq A] in
theorem Inv.clientWrite (sound : setting.Sound) (inv : Inv setting s plan)
    {ok : Bool} {client : Side R}
    (written : s.client.write setting.client setting.env setting.host setting.gzip
      setting.request s.lost ok = some client) :
    ∃ plan, Inv setting { s with client := client } plan := by
  obtain ⟨crashed, awake, cases⟩ :=
    write_cases written inv.wire (fun r _ => sound.requests r) inv.clientAwake
  have runs := crashed.trans inv.clientRuns
  rcases cases with ⟨items, pipe, connected⟩ | ⟨r, items, here, connected, wire⟩ |
    ⟨fewer, pipe, dead⟩
  · have still : alive { s with client := client } = s.alive := by
      simp only [alive, connected]
    refine ⟨plan, { inv with
      places := ?_, wire := ?_, clientRuns := runs, clientAwake := awake }⟩
    · rw [still, show ({ s with client := client } : Exchange R A).client.outbox.items
        = _ from items]
      exact inv.places
    · rw [show ({ s with client := client } : Exchange R A).client.pipe
        = _ from pipe]
      exact inv.wire
  · have still : alive { s with client := client } = s.alive := by
      simp only [alive, connected]
    refine ⟨{ plan with wire := plan.wire ++ [r] }, { inv with
      places := ?_, wire := ?_, clientRuns := runs, clientAwake := awake }⟩
    · have places := inv.places
      rw [items] at places
      rw [still]
      exact places.send
    · rw [List.map_append]
      exact wire
  · have gone : alive { s with client := client } = false := by
      rcases dead with lost | ⟨-, closed⟩
      · simp [alive, lost]
      · simp [alive, closed]
    refine ⟨plan, { inv with
      places := ?_, wire := ?_, clientRuns := runs, clientAwake := awake }⟩
    · rw [gone]
      exact inv.places.lose fewer (List.Sublist.refl _)
    · rw [show ({ s with client := client } : Exchange R A).client.pipe
        = _ from pipe]
      exact inv.wire

omit [DecidableEq A] in
theorem Inv.serverWrite (sound : setting.Sound) (inv : Inv setting s plan)
    {ok : Bool} {server : Side RockResponse}
    (written : s.server.write setting.server setting.env setting.host setting.gzip
      .response s.lost ok = some server) :
    ∃ plan, Inv setting { s with server := server } plan := by
  obtain ⟨crashed, awake, cases⟩ :=
    write_cases written inv.back (by
      intro rsp member
      rw [inv.replies] at member
      obtain ⟨r, -, rfl⟩ := List.mem_map.mp member
      exact sound.responses r) inv.serverAwake
  have runs := crashed.trans inv.serverRuns
  rcases cases with ⟨items, pipe, connected⟩ |
    ⟨rsp, items, here, connected, back⟩ | ⟨fewer, pipe, dead⟩
  · have still : alive { s with server := server } = s.alive := by
      simp only [alive, connected]
    refine ⟨plan, { inv with
      places := ?_, replies := items.trans inv.replies, back := ?_,
      serverRuns := runs, serverAwake := awake }⟩
    · rw [still]
      exact inv.places
    · rw [show ({ s with server := server } : Exchange R A).server.pipe
        = _ from pipe]
      exact inv.back
  · have still : alive { s with server := server } = s.alive := by
      simp only [alive, connected]
    rw [inv.replies] at items
    obtain ⟨r, rest, first, rfl, later⟩ := List.map_eq_cons_iff.mp items
    refine ⟨{ plan with replies := rest, back := plan.back ++ [r] }, { inv with
      places := ?_, replies := later.symm, back := ?_, serverRuns := runs,
      serverAwake := awake }⟩
    · rw [still]
      exact inv.places.reply first
    · rw [List.map_append]
      exact back
  · have gone : alive { s with server := server } = false := by
      rcases dead with lost | ⟨-, closed⟩
      · simp [alive, lost]
      · simp [alive, closed]
    rw [inv.replies] at fewer
    obtain ⟨rest, sublist, same⟩ := List.sublist_map_iff.mp fewer
    refine ⟨{ plan with replies := rest }, { inv with
      places := ?_, replies := same, back := ?_, serverRuns := runs,
      serverAwake := awake }⟩
    · rw [gone]
      exact inv.places.lose (List.Sublist.refl _) sublist
    · rw [show ({ s with server := server } : Exchange R A).server.pipe
        = _ from pipe]
      exact inv.back

omit [DecidableEq A] in
theorem Inv.clientClose (inv : Inv setting s plan) :
    Inv setting { s with client := s.client.drop } plan :=
  { inv with
    places := inv.places.lose (List.Sublist.refl _) (List.Sublist.refl _) }

omit [DecidableEq A] in
theorem Inv.serverClose (inv : Inv setting s plan) :
    Inv setting { s with server := s.server.drop } plan := by
  have gone : alive { s with server := s.server.drop } = false := by
    simp [alive, Side.drop]
  refine { inv with places := ?_ }
  rw [gone]
  exact inv.places.lose (List.Sublist.refl _) (List.Sublist.refl _)

omit [DecidableEq A] in
theorem Inv.serverInnerClose (inv : Inv setting s plan)
    (closed : s.server.connected = false) :
    ∃ plan, Inv setting { s with server := s.server.innerClose } plan := by
  have fewer := @Outbox.items_close _ s.server.outbox
  rw [inv.replies] at fewer
  obtain ⟨rest, sublist, same⟩ := List.sublist_map_iff.mp fewer
  have gone : alive { s with server := s.server.innerClose } = false := by
    simp [alive, Side.innerClose, closed]
  refine ⟨{ plan with replies := rest }, { inv with
    places := ?_, replies := same, serverAwake := Outbox.Awake.close }⟩
  rw [gone]
  exact inv.places.lose (List.Sublist.refl _) sublist

omit [DecidableEq A] in
theorem Inv.lose (inv : Inv setting s plan) (requests responses : Nat) :
    Inv setting { s with
      lost := true
      client := { s.client with pipe :=
        { s.client.pipe with transit := s.client.pipe.transit.take requests } }
      server := { s.server with pipe :=
        { s.server.pipe with
          transit := s.server.pipe.transit.take responses } } } plan := by
  refine { inv with
    places := ?_, wire := inv.wire.lose requests, back := inv.back.lose responses }
  have gone : (s.client.connected && s.server.connected && !true) = false := by
    simp
  change Places _ _ (s.client.connected && s.server.connected && !true) _ plan
  rw [gone]
  exact inv.places.lose (List.Sublist.refl _) (List.Sublist.refl _)

omit [DecidableEq A] in
/-- `doRecv` of the server reads the next request of the plan. It finds none
only on an exchange that is over. -/
theorem serverRecv_cases (sound : setting.Sound) (inv : Inv setting s plan)
    (taken : serverRecv setting s = some t) :
    (∃ r rest after, plan.wire = r :: rest ∧
        Carries setting.host (rest.map setting.request) after.transit s.lost ∧
        t = { s with
          client := { s.client with pipe := after }
          tasks := s.tasks ++ [setting.issued r] }) ∨
      (s.alive = false ∧ ∃ after,
        Carries setting.host (plan.wire.map setting.request) after.transit
          s.lost ∧
        t = { s with
          client := { s.client with pipe := after }
          server := s.server.drop }) := by
  unfold Exchange.serverRecv at taken
  split at taken
  · rename_i allowed
    obtain ⟨found, after, parsed, cases⟩ :=
      @Carries.receive setting.host _ _ setting.client setting.server setting.env
        setting.gzip s.client.pipe.socket rfl inv.wire (by
          intro message member
          obtain ⟨r, -, rfl⟩ := List.mem_map.mp member
          exact sound.requests r)
    rw [parsed] at taken
    rcases cases with ⟨message, rest, messages, rfl, wire⟩ | ⟨rfl, wire, none⟩
    · obtain ⟨r, later, first, rfl, rfl⟩ := List.map_eq_cons_iff.mp messages
      cases taken
      exact .inl ⟨r, later, .of after, first, wire, rfl⟩
    · cases taken
      refine .inr ⟨?_, .of after, wire, rfl⟩
      rcases none with empty | lost
      · have drained : s.lost = false → s.client.pipe.transit = [] := by
          intro present
          have transit := inv.wire.whole present
          rw [empty] at transit
          exact transit
        unfold ready at allowed
        unfold alive
        cases lost : s.lost with
        | true => simp
        | false =>
            rw [drained lost, lost] at allowed
            simp at allowed
            simp [allowed.2]
      · simp [alive, lost]
  · cases taken

/-- `doRecv` of the client reads the next response of the plan. -/
theorem clientRecv_cases (sound : setting.Sound) (inv : Inv setting s plan)
    (taken : clientRecv setting s = some t) :
    (∃ r rest after, plan.back = r :: rest ∧
        s.base.pc setting.reader = .idle ∧
        Carries setting.host
          (rest.map fun r => .response (setting.answer r)) after.transit s.lost ∧
        t = { s with
          server := { s.server with pipe := after }
          base := doRecv setting.sn s.base setting.reader (setting.answer r) }) ∨
      (s.alive = false ∧ ∃ after,
        Carries setting.host
          (plan.back.map fun r => .response (setting.answer r)) after.transit
          s.lost ∧
        t = { s with
          server := { s.server with pipe := after }
          client := s.client.drop }) := by
  unfold Exchange.clientRecv at taken
  split at taken
  · rename_i allowed
    obtain ⟨found, after, parsed, cases⟩ :=
      @Carries.receive setting.host _ _ setting.server setting.client setting.env
        setting.gzip s.server.pipe.socket rfl inv.back (by
          intro message member
          obtain ⟨r, -, rfl⟩ := List.mem_map.mp member
          exact sound.responses r)
    rw [parsed] at taken
    simp only [Bool.and_eq_true, decide_eq_true_eq] at allowed
    obtain ⟨⟨connected, idle⟩, waits⟩ := allowed
    rcases cases with ⟨message, rest, messages, rfl, back⟩ | ⟨rfl, back, none⟩
    · obtain ⟨r, later, first, rfl, rfl⟩ := List.map_eq_cons_iff.mp messages
      cases taken
      exact .inl ⟨r, later, .of after, first, idle, back, rfl⟩
    · cases taken
      refine .inr ⟨?_, .of after, back, rfl⟩
      rcases none with empty | lost
      · have drained : s.lost = false → s.server.pipe.transit = [] := by
          intro present
          have transit := inv.back.whole present
          rw [empty] at transit
          exact transit
        unfold ready at waits
        unfold alive
        cases lost : s.lost with
        | true => simp
        | false =>
            rw [drained lost, lost] at waits
            simp at waits
            simp [waits]
      · simp [alive, lost]
  · cases taken

omit [DecidableEq A] in
theorem Inv.serverRecv (sound : setting.Sound) (inv : Inv setting s plan)
    (taken : serverRecv setting s = some t) : ∃ plan, Inv setting t plan := by
  obtain ⟨r, rest, after, first, wire, rfl⟩ | ⟨-, after, wire, rfl⟩ :=
    serverRecv_cases sound inv taken
  · refine ⟨{ plan with wire := rest, tasks := plan.tasks ++ [r] }, { inv with
      places := inv.places.receive first, wire := wire, tasks := ?_ }⟩
    simp [inv.tasks]
  · have client : Inv setting
        { s with client := { s.client with pipe := after } } plan :=
      { inv with wire := wire }
    exact ⟨plan, client.serverClose⟩

omit [DecidableEq A] in
theorem Inv.handle (inv : Inv setting s plan) {position : Nat}
    (taken : handle s position = some t) : ∃ plan, Inv setting t plan := by
  unfold Exchange.handle at taken
  split at taken
  · cases taken
  · rename_i req found
    rw [inv.tasks, List.getElem?_map] at found
    obtain ⟨r, place, rfl⟩ := Option.map_eq_some_iff.mp found
    obtain ⟨inside, here⟩ := List.getElem?_eq_some_iff.mp place
    have tasks : plan.tasks.Perm (r :: plan.tasks.eraseIdx position) := by
      rw [← here]
      exact (List.getElem_cons_eraseIdx_perm inside).symm
    have erased : s.tasks.eraseIdx position =
        (plan.tasks.eraseIdx position).map setting.issued := by
      rw [inv.tasks, List.eraseIdx_map]
    have handled : s.handled ++ [setting.issued r] =
        (plan.handled ++ [r]).map setting.issued := by
      rw [inv.handled, List.map_append]
      rfl
    cases connected : s.server.connected with
    | true =>
        simp only [connected, RockServer.requestHandler, if_true] at taken
        cases taken
        have places := inv.places.handle tasks true (fun _ => rfl)
        refine ⟨{ plan with
            tasks := plan.tasks.eraseIdx position
            handled := plan.handled ++ [r]
            replies := plan.replies ++ [r] }, { inv with
          places := ?_, tasks := erased, handled := handled, replies := ?_
          serverAwake := inv.serverAwake.enqueue _ }⟩
        · have still : (s.client.connected && true && !s.lost) = s.alive := by
            rw [alive, connected]
          change Places _ _ (s.client.connected && true && !s.lost) _ _
          rw [still]
          exact places
        · change (s.server.outbox.enqueue _).items = _
          rw [Outbox.items_enqueue, inv.replies, List.map_append]
          rfl
    | false =>
        have dead : s.alive = false := by simp [alive, connected]
        simp only [connected, RockServer.requestHandler, Bool.false_eq_true,
          if_false, if_true] at taken
        cases taken
        have places := inv.places.handle tasks false (by rw [dead]; rintro ⟨⟩)
        rw [if_neg Bool.false_ne_true, List.append_nil] at places
        exact ⟨{ plan with
            tasks := plan.tasks.eraseIdx position
            handled := plan.handled ++ [r] }, { inv with
          places := places, tasks := erased, handled := handled }⟩

theorem Inv.clientRecv (sound : setting.Sound) (inv : Inv setting s plan)
    (taken : clientRecv setting s = some t) : ∃ plan, Inv setting t plan := by
  obtain ⟨r, rest, after, first, -, back, rfl⟩ | ⟨-, after, back, rfl⟩ :=
    clientRecv_cases sound inv taken
  · obtain ⟨request, subset, erased⟩ :=
      @doRecv_effect R A _ setting.sn s.base setting.reader (setting.answer r)
    refine ⟨{ plan with back := rest, delivered := plan.delivered ++ [r] },
      { inv with places := ?_, back := back }⟩
    have places := inv.places.deliver first subset (erased r rfl)
    rw [← request] at places
    exact places
  · have server : Inv setting
        { s with server := { s.server with pipe := after } } plan :=
      { inv with back := back }
    exact ⟨plan, server.clientClose⟩

theorem Inv.step (sound : setting.Sound) (inv : Inv setting s plan)
    {action : Action R A} (taken : step setting s action = some t) :
    ∃ plan, Inv setting t plan := by
  cases action with
  | request r => exact ⟨plan, inv.request taken⟩
  | onTimeOut party r =>
      obtain ⟨base, moved, rfl⟩ := Option.map_eq_some_iff.mp taken
      refine ⟨plan, inv.base ?_ (step_shrinks (by rintro _ ⟨⟩) moved).ctxs⟩
      simp only [AsyncSocketStream.step] at moved
      split at moved
      · cases moved
        rfl
      · cases moved
  | work party =>
      obtain ⟨base, moved, rfl⟩ := Option.map_eq_some_iff.mp taken
      exact ⟨plan, inv.base (work_request moved)
        (step_shrinks (by rintro _ ⟨⟩) moved).ctxs⟩
  | clientNotify =>
      obtain ⟨outbox, notified, rfl⟩ := Option.map_eq_some_iff.mp taken
      exact ⟨plan, inv.clientNotify notified⟩
  | clientWrite ok =>
      obtain ⟨client, written, rfl⟩ := Option.map_eq_some_iff.mp taken
      exact inv.clientWrite sound written
  | clientRecv => exact inv.clientRecv sound taken
  | clientClose =>
      cases taken
      exact ⟨plan, inv.clientClose⟩
  | clientInnerClose party order =>
      simp only [Exchange.step] at taken
      split at taken
      · cases taken
      · rename_i closed
        obtain ⟨base, moved, rfl⟩ := Option.map_eq_some_iff.mp taken
        exact ⟨plan, inv.innerClose (by simpa using closed) moved⟩
  | serverRecv => exact inv.serverRecv sound taken
  | handle position => exact inv.handle taken
  | serverNotify =>
      obtain ⟨outbox, notified, rfl⟩ := Option.map_eq_some_iff.mp taken
      exact ⟨plan, inv.serverNotify notified⟩
  | serverWrite ok =>
      obtain ⟨server, written, rfl⟩ := Option.map_eq_some_iff.mp taken
      exact inv.serverWrite sound written
  | serverClose =>
      cases taken
      exact ⟨plan, inv.serverClose⟩
  | serverInnerClose =>
      simp only [Exchange.step] at taken
      split at taken
      · cases taken
      · rename_i closed
        cases taken
        exact inv.serverInnerClose (by simpa using closed)
  | lose requests responses =>
      cases taken
      exact ⟨plan, inv.lose requests responses⟩

end Exchange

end Sylar
