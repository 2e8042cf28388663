import Sylar.Async.Model

namespace Sylar.AsyncSocketStream

open Logic

/-! What a run is for one request: its own fields and, for every activity, what
that activity does with it. Every step of the stream is a step of this view, or
leaves it alone. -/

def Request.made : Request → Bool
  | .addCtx => false
  | _ => true

inductive Role
  | free
  /-- in the list of `innerClose`, which has yet to come to it -/
  | waiting
  | on (stage : Stage)
  deriving DecidableEq, Repr

def Role.resume : Option Stage → Role
  | some next => .on next
  | none => .free

namespace Pc

variable [DecidableEq R]

def role (r : R) : Pc R → Role
  | .loop rest => if r ∈ rest then .waiting else .free
  | .on current stage rest =>
      if current = r then .on stage else if r ∈ rest then .waiting else .free

def targets : Pc R → List R
  | .loop rest => rest
  | .on r _ rest => r :: rest

@[simp] theorem role_idle (r : R) : Pc.idle.role r = .free := rfl

theorem role_on_of_ne {r current : R} (other : r ≠ current) (stage : Stage)
    (rest : List R) : (Pc.on current stage rest).role r = (loop rest).role r :=
  if_neg other.symm

theorem role_resume_of_ne {r current : R} (other : r ≠ current)
    (rest : List R) (next : Option Stage) :
    (Pc.resume current rest next).role r = (loop rest).role r := by
  cases next with
  | none => rfl
  | some next => exact role_on_of_ne other next rest

theorem role_resume {r : R} {rest : List R} (absent : r ∉ rest)
    (next : Option Stage) : (Pc.resume r rest next).role r = .resume next := by
  cases next with
  | none => exact if_neg absent
  | some next => exact if_pos rfl

end Pc

structure View (A : Type) where
  request : Request
  listed : Bool
  timer : Bool
  scheduled : Nat
  ctx : Ctx
  role : A → Role

namespace View

variable {A : Type} [DecidableEq A] (v : View A)

def started : Bool :=
  v.request.made

def goto (party : A) (role : Role) : View A :=
  { v with role := Function.update v.role party role }

def advance : Option (View A) :=
  match v.request with
  | .addCtx => some { v with request := .addTimer, listed := true, ctx := .new }
  | .addTimer => some { v with request := .setTimer, timer := true }
  | .setTimer =>
      some { v with request := .enqueue, ctx := { v.ctx with timer := true } }
  | .enqueue => some { v with request := .yieldToHold }
  | .yieldToHold =>
      if 0 < v.scheduled then some { v with request := .readResult } else none
  | .readResult =>
      some { v with request := .readResultStr v.ctx.result.toInt32 }
  | .readResultStr result =>
      some { v with request := .readResponse result v.ctx.resultStr }
  | .readResponse result resultStr =>
      some { v with request := .finished ⟨result, resultStr, v.ctx.response⟩ }
  | .finished _ => none

def effect : Stage → View A
  | .erase => { v with listed := false }
  | .cancelTimer => { v with timer := false }
  | .schedule => { v with scheduled := v.scheduled + 1 }
  | _ => v

def run (party : A) (stage : Stage) : View A :=
  { v.effect stage with ctx := (v.ctx.run stage).1 }.goto party
    (.resume (v.ctx.run stage).2)

/-- The steps of one request. The assignment of `timed` may be restricted. -/
inductive Step (sn : UInt32) (allowed : View A → Prop) : View A → View A → Prop
  | silent (v : View A) : Step sn allowed v v
  | advance (v next : View A) (advanced : v.advance = some next) :
      Step sn allowed v next
  | doRecv (v : View A) (party : A) (rsp : RockResponse) (mine : rsp.sn = sn)
      (free : v.role party = .free) (listed : v.listed = true) :
      Step sn allowed v
        ({ v with listed := false }.goto party (.on (.setResult rsp)))
  | onTimeOut (v : View A) (party : A) (free : v.role party = .free)
      (live : v.timer = true) :
      Step sn allowed v ({ v with timer := false }.goto party (.on .erase))
  | innerClose (v : View A) (party : A) (free : v.role party = .free)
      (listed : v.listed = true) :
      Step sn allowed v ({ v with listed := false }.goto party .waiting)
  | take (v : View A) (party : A) (waiting : v.role party = .waiting) :
      Step sn allowed v (v.goto party (.on .setIoError))
  | run (v : View A) (party : A) (stage : Stage)
      (place : v.role party = .on stage)
      (permitted : stage = .setTimed → allowed v) :
      Step sn allowed v (v.run party stage)

end View

namespace State

variable {R A : Type} [DecidableEq R] [DecidableEq A]

def view (s : State R A) (r : R) : View A where
  request := s.request r
  listed := r ∈ s.ctxs
  timer := s.timers r
  scheduled := s.scheduled r
  ctx := s.ctx r
  role party := (s.pc party).role r

structure WellFormed (s : State R A) : Prop where
  ctxs : s.ctxs.Nodup
  targets : ∀ party, (s.pc party).targets.Nodup

variable {s : State R A} {r current : R}

omit [DecidableEq A] in
theorem view_ctx : (s.view r).ctx = s.ctx r := rfl

theorem view_goto (party : A) (pc : Pc R) :
    (s.goto party pc).view r = (s.view r).goto party (pc.role r) := by
  change ({ s.view r with role := fun other =>
      (Function.update s.pc party pc other).role r } : View A) = _
  refine congrArg (fun role => ({ s.view r with role := role } : View A)) ?_
  funext other
  exact Function.apply_update (fun _ => Pc.role r) s.pc party pc other

theorem view_goto_same {party : A} {pc : Pc R}
    (same : pc.role r = (s.pc party).role r) :
    (s.goto party pc).view r = s.view r := by
  rw [view_goto, same]
  exact congrArg (fun role => { s.view r with role := role })
    (Function.update_eq_self party _)

omit [DecidableEq A] in
theorem view_setCtx (ctx : Ctx) :
    (s.setCtx r ctx).view r = { s.view r with ctx := ctx } :=
  congrArg (fun ctx => { s.view r with ctx := ctx })
    (Function.update_self r ctx s.ctx)

omit [DecidableEq A] in
theorem view_setCtx_of_ne (other : r ≠ current) (ctx : Ctx) :
    (s.setCtx current ctx).view r = s.view r :=
  congrArg (fun ctx => { s.view r with ctx := ctx })
    (Function.update_of_ne other ctx s.ctx)

omit [DecidableEq A] in
theorem view_setRequest (next : Request) :
    (s.setRequest r next).view r = { s.view r with request := next } :=
  congrArg (fun request => { s.view r with request := request })
    (Function.update_self r next s.request)

omit [DecidableEq A] in
theorem view_setRequest_of_ne (other : r ≠ current) (next : Request) :
    (s.setRequest current next).view r = s.view r :=
  congrArg (fun request => { s.view r with request := request })
    (Function.update_of_ne other next s.request)

omit [DecidableEq A] in
theorem view_timers (live : Bool) :
    ({ s with timers := Function.update s.timers r live } : State R A).view r =
      { s.view r with timer := live } :=
  congrArg (fun timer => { s.view r with timer := timer })
    (Function.update_self r live s.timers)

omit [DecidableEq A] in
theorem view_timers_of_ne (other : r ≠ current) (live : Bool) :
    ({ s with timers := Function.update s.timers current live } : State R A).view r =
      s.view r :=
  congrArg (fun timer => { s.view r with timer := timer })
    (Function.update_of_ne other live s.timers)

omit [DecidableEq A] in
theorem view_ctxs {ctxs : List R} {listed : Bool}
    (same : listed = true ↔ r ∈ ctxs) :
    ({ s with ctxs := ctxs } : State R A).view r =
      { s.view r with listed := listed } :=
  congrArg (fun listed => { s.view r with listed := listed })
    (Bool.eq_iff_iff.mpr (decide_eq_true_iff.trans same.symm))

omit [DecidableEq A] in
theorem view_ctxs_same {ctxs : List R} (same : r ∈ ctxs ↔ r ∈ s.ctxs) :
    ({ s with ctxs := ctxs } : State R A).view r = s.view r :=
  view_ctxs (decide_eq_true_iff.trans same.symm)

end State

section

variable {R A : Type} [DecidableEq R] [DecidableEq A] {sn : R → UInt32}
  {s t : State R A} {r : R}

omit [DecidableEq R] in
theorem mem_addCtx (distinct : Function.Injective sn) (ctxs : List R) (current : R) :
    r ∈ addCtx sn ctxs current ↔ r = current ∨ r ∈ ctxs := by
  unfold addCtx
  split
  · rename_i present
    obtain ⟨other, member, same⟩ := List.any_eq_true.mp present
    obtain rfl := distinct (of_decide_eq_true same)
    constructor
    · exact .inr
    · rintro (rfl | member)
      · exact member
      · exact member
  · simp

omit [DecidableEq R] in
theorem addCtx_nodup {ctxs : List R} (nodup : ctxs.Nodup) (current : R) :
    (addCtx sn ctxs current).Nodup := by
  unfold addCtx
  split
  · exact nodup
  · rename_i absent
    refine List.nodup_cons.mpr ⟨?_, nodup⟩
    intro member
    exact absent (List.any_eq_true.mpr ⟨current, member, by simp⟩)

theorem mem_eraseCtx (distinct : Function.Injective sn) (ctxs : List R) (current : R) :
    r ∈ eraseCtx sn ctxs (sn current) ↔ r ≠ current ∧ r ∈ ctxs := by
  simp [eraseCtx, distinct.eq_iff, and_comm]

omit [DecidableEq R] in
theorem eraseCtx_nodup {ctxs : List R} (nodup : ctxs.Nodup) (key : UInt32) :
    (eraseCtx sn ctxs key).Nodup :=
  nodup.filter _

omit [DecidableEq R] in
theorem getCtx_eq_some {ctxs : List R} {key : UInt32}
    (found : getCtx sn ctxs key = some r) : r ∈ ctxs ∧ sn r = key :=
  ⟨List.mem_of_find?_eq_some found, by simpa using List.find?_some found⟩

omit [DecidableEq A] in
theorem view_request (distinct : Function.Injective sn)
    (taken : request sn s r = some t) :
    (s.view r).advance = some (t.view r) := by
  unfold View.advance
  cases place : s.request r with
  | addCtx =>
      simp only [request, place] at taken
      cases taken
      have listed : true = true ↔ r ∈ addCtx sn s.ctxs r := by
        simp [mem_addCtx distinct]
      rw [show (s.view r).request = .addCtx from place, State.view_setRequest,
        State.view_setCtx, State.view_ctxs listed]
  | yieldToHold =>
      simp only [request, place] at taken
      rw [show (s.view r).request = .yieldToHold from place]
      change (if 0 < s.scheduled r then _ else none) = _
      split at taken
      · rename_i woken
        cases taken
        rw [if_pos woken, State.view_setRequest]
      · cases taken
  | finished result =>
      simp only [request, place] at taken
      cases taken
  | _ =>
      simp only [request, place] at taken
      cases taken
      simp only [show (s.view r).request = _ from place, State.view_setRequest,
        State.view_timers, State.view_setCtx, State.view_ctx]

omit [DecidableEq A] in
theorem view_request_of_ne (distinct : Function.Injective sn) {current : R}
    (other : r ≠ current) (taken : request sn s current = some t) :
    t.view r = s.view r := by
  cases place : s.request current with
  | addCtx =>
      simp only [request, place] at taken
      cases taken
      rw [State.view_setRequest_of_ne other, State.view_setCtx_of_ne other,
        State.view_ctxs_same]
      simp [mem_addCtx distinct, other]
  | yieldToHold =>
      simp only [request, place] at taken
      split at taken
      · cases taken
        exact State.view_setRequest_of_ne other _
      · cases taken
  | finished result =>
      simp only [request, place] at taken
      cases taken
  | _ =>
      simp only [request, place] at taken
      cases taken
      simp only [State.view_setRequest_of_ne other,
        State.view_timers_of_ne other, State.view_setCtx_of_ne other]

omit [DecidableEq A] in
theorem view_effect (distinct : Function.Injective sn) (stage : Stage) :
    (effect sn s r stage).view r = (s.view r).effect stage := by
  cases stage with
  | erase => exact State.view_ctxs (by simp [mem_eraseCtx distinct])
  | cancelTimer => exact State.view_timers false
  | schedule =>
      exact congrArg (fun scheduled => { s.view r with scheduled := scheduled })
        (Function.update_self r _ s.scheduled)
  | _ => rfl

omit [DecidableEq A] in
theorem view_effect_of_ne (distinct : Function.Injective sn) {current : R}
    (other : r ≠ current) (stage : Stage) :
    (effect sn s current stage).view r = s.view r := by
  cases stage with
  | erase => exact State.view_ctxs_same (by simp [mem_eraseCtx distinct, other])
  | cancelTimer => exact State.view_timers_of_ne other false
  | schedule =>
      exact congrArg (fun scheduled => { s.view r with scheduled := scheduled })
        (Function.update_of_ne other _ s.scheduled)
  | _ => rfl

omit [DecidableEq A] in
theorem effect_pc (current : R) (stage : Stage) :
    (effect sn s current stage).pc = s.pc := by
  cases stage <;> rfl

def setsTimed (s : State R A) (r : R) (action : Action R A) : Prop :=
  ∃ party rest, action = .work party ∧ s.pc party = .on r .setTimed rest

theorem view_work (distinct : Function.Injective sn) (formed : s.WellFormed)
    {party : A} (permitted : setsTimed s r (.work party) → allowed (s.view r))
    (taken : work sn s party = some t) :
    View.Step (sn r) allowed (s.view r) (t.view r) := by
  have nodup := formed.targets party
  cases place : s.pc party with
  | loop rest =>
      cases rest with
      | nil =>
          simp only [work, place] at taken
          cases taken
      | cons current rest =>
          simp only [work, place] at taken
          cases taken
          by_cases same : r = current
          · subst same
            rw [State.view_goto]
            have waiting : (s.view r).role party = .waiting := by
              simp [State.view, place, Pc.role]
            simpa [Pc.role] using View.Step.take _ party waiting
          · rw [State.view_goto_same]
            · exact .silent _
            · simp [place, Pc.role, same, Ne.symm same]
  | on current stage rest =>
      rw [place] at nodup
      simp only [work, place] at taken
      cases taken
      by_cases same : r = current
      · subst same
        have stays : (s.view r).role party = .on stage := by
          simp [State.view, place, Pc.role]
        have absent : r ∉ rest := (List.nodup_cons.mp nodup).1
        rw [State.view_goto, State.view_setCtx, view_effect distinct,
          Pc.role_resume absent]
        refine View.Step.run _ party stage stays ?_
        rintro rfl
        exact permitted ⟨party, rest, rfl, place⟩
      · rw [State.view_goto_same, State.view_setCtx_of_ne same,
          view_effect_of_ne distinct same]
        · exact .silent _
        · change _ = ((effect sn s current stage).pc party).role r
          rw [effect_pc, place, Pc.role_on_of_ne same, Pc.role_resume_of_ne same]

theorem view_doRecv (distinct : Function.Injective sn) {party : A}
    (idle : s.pc party = .idle) (rsp : RockResponse) :
    View.Step (sn r) allowed (s.view r) ((doRecv sn s party rsp).view r) := by
  unfold doRecv
  split
  · exact .silent _
  · rename_i current found
    obtain ⟨member, key⟩ := getCtx_eq_some found
    rw [← key]
    by_cases same : r = current
    · subst same
      have free : (s.view r).role party = .free := by simp [State.view, idle]
      have listed : (s.view r).listed = true := by simpa [State.view] using member
      have gone : false = true ↔ r ∈ eraseCtx sn s.ctxs (sn r) := by
        simp [mem_eraseCtx distinct]
      rw [State.view_goto, State.view_ctxs gone]
      simpa [Pc.role] using View.Step.doRecv _ party rsp key.symm free listed
    · have kept : r ∈ eraseCtx sn s.ctxs (sn current) ↔ r ∈ s.ctxs := by
        simp [mem_eraseCtx distinct, same]
      rw [State.view_goto_same, State.view_ctxs_same kept]
      · exact .silent _
      · simp [idle, Pc.role, Pc.idle, Ne.symm same]

theorem view_onTimeOut {party : A} {current : R} (idle : s.pc party = .idle)
    (live : s.timers current = true) :
    View.Step (sn r) allowed (s.view r) ((onTimeOut s party current).view r) := by
  unfold onTimeOut
  by_cases same : r = current
  · subst same
    have free : (s.view r).role party = .free := by simp [State.view, idle]
    rw [State.view_goto, State.view_timers]
    simpa [Pc.role] using View.Step.onTimeOut _ party free live
  · rw [State.view_goto_same, State.view_timers_of_ne same]
    · exact .silent _
    · simp [idle, Pc.role, Pc.idle, Ne.symm same]

theorem view_innerClose {party : A} {order : List R} (idle : s.pc party = .idle)
    (all : order.Perm s.ctxs) :
    View.Step (sn r) allowed (s.view r) ((innerClose s party order).view r) := by
  unfold innerClose
  have gone : false = true ↔ r ∈ ([] : List R) := by simp
  by_cases member : r ∈ s.ctxs
  · have free : (s.view r).role party = .free := by simp [State.view, idle]
    have listed : (s.view r).listed = true := by simpa [State.view] using member
    rw [State.view_goto, State.view_ctxs gone]
    simpa [Pc.role, all.mem_iff, member] using
      View.Step.innerClose _ party free listed
  · have kept : r ∈ ([] : List R) ↔ r ∈ s.ctxs := by simp [member]
    rw [State.view_goto_same, State.view_ctxs_same kept]
    · exact .silent _
    · simp [idle, Pc.role, Pc.idle, all.mem_iff, member]

/-- Every step of the stream is a step of the view of each request. -/
theorem view_step (distinct : Function.Injective sn) (formed : s.WellFormed)
    {action : Action R A} (permitted : setsTimed s r action → allowed (s.view r))
    (taken : step sn s action = some t) :
    View.Step (sn r) allowed (s.view r) (t.view r) := by
  cases action with
  | request current =>
      by_cases same : r = current
      · subst same
        exact .advance _ _ (view_request distinct taken)
      · rw [view_request_of_ne distinct same taken]
        exact .silent _
  | doRecv party rsp =>
      simp only [step] at taken
      split at taken
      · rename_i idle
        cases taken
        exact view_doRecv distinct idle rsp
      · cases taken
  | onTimeOut party current =>
      simp only [step] at taken
      split at taken
      · rename_i allowed
        cases taken
        exact view_onTimeOut allowed.1 allowed.2
      · cases taken
  | innerClose party order =>
      simp only [step] at taken
      split at taken
      · rename_i allowed
        cases taken
        exact view_innerClose allowed.1 allowed.2
      · cases taken
  | work party => exact view_work distinct formed permitted taken

end

end Sylar.AsyncSocketStream
