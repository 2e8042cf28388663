import Sylar.Async.Answers
import Sylar.Rock.Delivery

namespace Sylar

open Logic Data AsyncSocketStream RockMessageDecoder

namespace Exchange

/-! The runs of an exchange. -/

variable {R A : Type} [DecidableEq R] [DecidableEq A]
  {setting : Setting R A} {s t : Exchange R A} {plan : Plan R}

omit [DecidableEq A] in
theorem Initial.inv (initial : Initial s) : Inv setting s .empty where
  places := by
    have unsent : ∀ r, sent (s.base.request r) = false := by
      intro r
      rw [initial.base.request]
      rfl
    rw [initial.client]
    refine ⟨?_, ?_, ?_, ?_, ?_⟩
    · intro r
      simp [Side.new, Plan.empty]
    · intro r
      simp [Plan.empty]
    · intro _ r present
      rw [unsent] at present
      cases present
    · intro _ r
      simp [Plan.empty]
    · intro r member
      cases member
  wire := by
    rw [initial.client]
    exact .empty s.lost
  tasks := initial.tasks
  handled := initial.handled
  replies := by
    rw [initial.server]
    rfl
  back := by
    rw [initial.server]
    exact .empty s.lost
  clientRuns := by
    rw [initial.client]
    rfl
  serverRuns := by
    rw [initial.server]
    rfl
  clientAwake := by
    rw [initial.client]
    exact fun more => absurd rfl more
  serverAwake := by
    rw [initial.server]
    exact fun more => absurd rfl more

/-- No timer fires, nobody closes and the network stays. -/
def Peaceful : Action R A → Prop
  | .onTimeOut _ _ => False
  | .clientClose => False
  | .clientInnerClose _ _ => False
  | .serverClose => False
  | .serverInnerClose => False
  | .lose _ _ => False
  | _ => True

/-- A step of the exchange leaves the base alone or is a step of it. -/
theorem base_step (sound : setting.Sound) (inv : Inv setting s plan)
    {action : Action R A} (taken : step setting s action = some t) :
    t.base = s.base ∨ ∃ move,
      AsyncSocketStream.step setting.sn s.base move = some t.base ∧
      Answered setting.sn setting.answer move ∧
      (Peaceful action → Calm move) := by
  cases action with
  | request r =>
      obtain ⟨base, moved, rfl⟩ := Option.map_eq_some_iff.mp taken
      exact .inr ⟨.request r, moved, trivial, fun _ => trivial⟩
  | onTimeOut party r =>
      obtain ⟨base, moved, rfl⟩ := Option.map_eq_some_iff.mp taken
      exact .inr ⟨.onTimeOut party r, moved, trivial, fun peaceful => peaceful⟩
  | work party =>
      obtain ⟨base, moved, rfl⟩ := Option.map_eq_some_iff.mp taken
      exact .inr ⟨.work party, moved, trivial, fun _ => trivial⟩
  | clientInnerClose party order =>
      simp only [Exchange.step] at taken
      split at taken
      · cases taken
      · obtain ⟨base, moved, rfl⟩ := Option.map_eq_some_iff.mp taken
        exact .inr ⟨.innerClose party order, moved, trivial,
          fun peaceful => peaceful⟩
  | clientRecv =>
      obtain ⟨r, rest, after, -, idle, -, rfl⟩ | ⟨-, after, -, rfl⟩ :=
        clientRecv_cases sound inv taken
      · refine .inr ⟨.doRecv setting.reader (setting.answer r), ?_, ?_,
          fun _ => trivial⟩
        · simp only [AsyncSocketStream.step]
          rw [if_pos idle]
        · intro other number
          exact congrArg setting.answer (sound.distinct number).symm
      · exact .inl rfl
  | clientNotify =>
      obtain ⟨outbox, -, rfl⟩ := Option.map_eq_some_iff.mp taken
      exact .inl rfl
  | clientWrite ok =>
      obtain ⟨client, -, rfl⟩ := Option.map_eq_some_iff.mp taken
      exact .inl rfl
  | serverNotify =>
      obtain ⟨outbox, -, rfl⟩ := Option.map_eq_some_iff.mp taken
      exact .inl rfl
  | serverWrite ok =>
      obtain ⟨server, -, rfl⟩ := Option.map_eq_some_iff.mp taken
      exact .inl rfl
  | serverRecv =>
      obtain ⟨r, rest, after, -, -, rfl⟩ | ⟨-, after, -, rfl⟩ :=
        serverRecv_cases sound inv taken
      · exact .inl rfl
      · exact .inl rfl
  | handle position =>
      simp only [Exchange.step, Exchange.handle] at taken
      split at taken
      · cases taken
      · cases taken
        exact .inl rfl
  | serverInnerClose =>
      simp only [Exchange.step] at taken
      split at taken
      · cases taken
      · cases taken
        exact .inl rfl
  | _ =>
      cases taken
      exact .inl rfl

theorem inv_run (sound : setting.Sound)
    (reached : Reach Initial (StepOf (step setting)) s) :
    (∃ plan, Inv setting s plan) ∧
      Reach AsyncSocketStream.Initial
        (StepWhen (AsyncSocketStream.step setting.sn) fun _ move =>
          Answered setting.sn setting.answer move) s.base := by
  induction reached with
  | start s initial => exact ⟨⟨_, initial.inv⟩, .start s.base initial.base⟩
  | step s action t _ taken ih =>
      obtain ⟨⟨plan, inv⟩, base⟩ := ih
      refine ⟨inv.step sound taken, ?_⟩
      rcases base_step sound inv taken with same | ⟨move, moved, answered, -⟩
      · rw [same]
        exact base
      · exact .step s.base move t.base base ⟨answered, moved⟩

/-- Nothing is left to do but to issue requests, to let timers fire and to
close. -/
structure Quiet (setting : Setting R A) (s : Exchange R A) : Prop where
  request : ∀ r, s.base.request r ≠ .addCtx → step setting s (.request r) = none
  work : ∀ party, step setting s (.work party) = none
  clientNotify : step setting s .clientNotify = none
  clientWrite : step setting s (.clientWrite true) = none
  clientRecv : step setting s .clientRecv = none
  serverRecv : step setting s .serverRecv = none
  handle : ∀ position, step setting s (.handle position) = none
  serverNotify : step setting s .serverNotify = none
  serverWrite : step setting s (.serverWrite true) = none

theorem write_none {M : Type} {peer : Peer} {env : Surroundings} {host : Host}
    {gzip : Gzip} {message : M → Message} {lost ok : Bool} {side : Side M}
    (stuck : side.write peer env host gzip message lost ok = none) :
    side.outbox.advance = none := by
  unfold Side.write at stuck
  split at stuck
  · rename_i advanced
    exact advanced
  · cases stuck
  · exfalso
    split at stuck
    · cases stuck
    · split at stuck
      · cases stuck
      · split at stuck
        · split at stuck <;> cases stuck
        · cases stuck
        · cases stuck

theorem idle_of_stuck {sn : R → UInt32} {b : State R A} {party : A}
    (stuck : AsyncSocketStream.step sn b (.work party) = none) :
    b.pc party = .idle := by
  cases place : b.pc party with
  | loop rest =>
      cases rest with
      | nil => rfl
      | cons r rest => simp [AsyncSocketStream.step, AsyncSocketStream.work, place] at stuck
  | on r stage rest =>
      simp [AsyncSocketStream.step, AsyncSocketStream.work, place] at stuck

section Quiet

variable (inv : Inv setting s plan) (quiet : Quiet setting s)
  (here : s.alive = true)

omit [DecidableEq R] [DecidableEq A] in
theorem alive_parts (here : s.alive = true) :
    s.client.connected = true ∧ s.server.connected = true ∧ s.lost = false := by
  simpa [alive, and_assoc] using here

include inv quiet here

/-- A quiet exchange has nothing on its way. -/
theorem Quiet.nowhere : s.client.outbox.items = [] ∧ plan.wire = [] ∧
    plan.tasks = [] ∧ plan.replies = [] ∧ plan.back = [] := by
  obtain ⟨clientOpen, serverOpen, present⟩ := alive_parts here
  have wire := inv.wire
  have back := inv.back
  rw [present] at wire back
  refine ⟨?_, ?_, ?_, ?_, ?_⟩
  · exact inv.clientAwake.items_nil (Option.map_eq_none_iff.mp quiet.clientNotify)
      (write_none (Option.map_eq_none_iff.mp quiet.clientWrite))
  · cases first : plan.wire with
    | nil => rfl
    | cons r rest =>
        exfalso
        rw [first] at wire
        have some := wire.nonempty
        have stuck := quiet.serverRecv
        simp only [step, Exchange.serverRecv, ready, serverOpen] at stuck
        rw [if_pos (by simpa using .inl some)] at stuck
        split at stuck
        · split at stuck <;> cases stuck
        · cases stuck
        · cases stuck
        · cases stuck
  · cases first : plan.tasks with
    | nil => rfl
    | cons r rest =>
        exfalso
        have stuck := quiet.handle 0
        simp only [step, Exchange.handle, inv.tasks, first, List.map_cons,
          List.getElem?_cons_zero] at stuck
        cases stuck
  · have nothing := inv.serverAwake.items_nil
      (Option.map_eq_none_iff.mp quiet.serverNotify)
      (write_none (Option.map_eq_none_iff.mp quiet.serverWrite))
    rw [inv.replies] at nothing
    exact List.map_eq_nil_iff.mp nothing
  · cases first : plan.back with
    | nil => rfl
    | cons r rest =>
        exfalso
        rw [first] at back
        have some := back.nonempty
        have idle := idle_of_stuck
          (Option.map_eq_none_iff.mp (quiet.work setting.reader))
        have stuck := quiet.clientRecv
        simp only [step, Exchange.clientRecv, ready, clientOpen, idle] at stuck
        rw [if_pos (by simpa using .inl some)] at stuck
        split at stuck
        · split at stuck <;> cases stuck
        · cases stuck
        · cases stuck
        · cases stuck

end Quiet

instance : (action : Action R A) → Decidable (Peaceful action)
  | .onTimeOut _ _ => inferInstanceAs (Decidable False)
  | .clientClose => inferInstanceAs (Decidable False)
  | .clientInnerClose _ _ => inferInstanceAs (Decidable False)
  | .serverClose => inferInstanceAs (Decidable False)
  | .serverInnerClose => inferInstanceAs (Decidable False)
  | .lose _ _ => inferInstanceAs (Decidable False)
  | .request _ => inferInstanceAs (Decidable True)
  | .work _ => inferInstanceAs (Decidable True)
  | .clientNotify => inferInstanceAs (Decidable True)
  | .clientWrite _ => inferInstanceAs (Decidable True)
  | .clientRecv => inferInstanceAs (Decidable True)
  | .serverRecv => inferInstanceAs (Decidable True)
  | .handle _ => inferInstanceAs (Decidable True)
  | .serverNotify => inferInstanceAs (Decidable True)
  | .serverWrite _ => inferInstanceAs (Decidable True)

/-- Two requests on one connection whose calls move one byte each. -/
def two : Setting Bool Unit where
  issued r := if r then ⟨⟨8, 1⟩, ⟨[6, 6]⟩⟩ else ⟨⟨7, 1⟩, ⟨[5]⟩⟩
  reader := ()
  client := .client
  server := .client
  env := bytewise
  host := ⟨.little, .little⟩
  gzip _ _ := .writeError

def opened : Exchange Bool Unit where
  base := ⟨[], fun _ => .new, fun _ => .addCtx, fun _ => false, fun _ => 0,
    fun _ => .idle⟩
  client := .new
  server := .new
  tasks := []
  handled := []
  lost := false

theorem opened_initial : Initial opened :=
  ⟨⟨rfl, fun _ => rfl, fun _ => rfl, fun _ => rfl, fun _ => rfl⟩, rfl, rfl, rfl,
    rfl, rfl⟩

end Exchange

end Sylar
