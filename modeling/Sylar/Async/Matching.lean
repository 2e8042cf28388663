import Mathlib.Data.Fintype.Basic
import Sylar.Async.View

namespace Sylar.AsyncSocketStream

open Logic

/-! Which request a response or a timeout is for. The number of a request is the
one its caller set, or else comes from `m_sn`; contexts are found and erased by
it. -/

variable {R A : Type} [DecidableEq R] [DecidableEq A]

/-- The request under whose number `onTimeOut` is about to erase. -/
def Pc.erasing : Pc R → Option R
  | .on r .erase _ => some r
  | _ => none

namespace State

/-- A timeout of this request has yet to erase. -/
def Armed (s : State R A) (r : R) : Prop :=
  s.request r = .addTimer ∨ s.timers r = true ∨
    ∃ party, (s.pc party).erasing = some r

def Live (s : State R A) (r : R) : Prop :=
  r ∈ s.ctxs ∨ s.Armed r

/-- No context is added and no timeout begins. -/
structure Shrinks (s t : State R A) : Prop where
  ctxs : ∀ r ∈ t.ctxs, r ∈ s.ctxs
  armed : ∀ r, t.Armed r → s.Armed r
  made : ∀ r, (t.request r).made = (s.request r).made

variable {s t : State R A} {sn : R → UInt32} {r : R}

omit [DecidableEq R] [DecidableEq A] in
theorem Shrinks.live (shrinks : Shrinks s t) (live : t.Live r) : s.Live r := by
  rcases live with member | armed
  · exact .inl (shrinks.ctxs r member)
  · exact .inr (shrinks.armed r armed)

omit [DecidableEq R] [DecidableEq A] in
/-- A change of the other fields. -/
theorem Shrinks.of_eq (ctxs : t.ctxs = s.ctxs) (request : t.request = s.request)
    (timers : t.timers = s.timers) (pc : t.pc = s.pc) : Shrinks s t := by
  refine ⟨?_, ?_, ?_⟩
  · rw [ctxs]
    exact fun _ member => member
  · intro r armed
    unfold Armed at *
    rwa [request, timers, pc] at armed
  · intro r
    rw [request]

omit [DecidableEq R] [DecidableEq A] in
theorem Shrinks.trans {middle : State R A} (first : Shrinks s middle)
    (second : Shrinks middle t) : Shrinks s t where
  ctxs r member := first.ctxs r (second.ctxs r member)
  armed r armed := first.armed r (second.armed r armed)
  made r := (second.made r).trans (first.made r)

omit [DecidableEq A] in
theorem shrinks_setRequest {next : Request} (armed : next ≠ .addTimer)
    (made : next.made = (s.request r).made) :
    Shrinks s (s.setRequest r next) := by
  refine ⟨fun _ member => member, ?_, ?_⟩
  · rintro other (place | rest)
    · rcases eq_or_ne other r with rfl | different
      · exact absurd ((Function.update_self _ _ _).symm.trans place) armed
      · exact .inl ((Function.update_of_ne different _ _).symm.trans place)
    · exact .inr rest
  · intro other
    rcases eq_or_ne other r with rfl | different
    · exact (congrArg Request.made (Function.update_self _ _ _)).trans made
    · exact congrArg Request.made (Function.update_of_ne different _ _)

omit [DecidableEq R] in
theorem shrinks_goto {party : A} {pc : Pc R}
    (plain : ∀ r, pc.erasing = some r → s.timers r = true) :
    Shrinks s (s.goto party pc) := by
  refine ⟨fun _ member => member, ?_, fun _ => rfl⟩
  rintro other (place | live | ⟨actor, place⟩)
  · exact .inl place
  · exact .inr (.inl live)
  · change (Function.update s.pc party pc actor).erasing = some other at place
    rcases eq_or_ne actor party with rfl | different
    · rw [Function.update_self] at place
      exact .inr (.inl (plain other place))
    · rw [Function.update_of_ne different] at place
      exact .inr (.inr ⟨actor, place⟩)

omit [DecidableEq R] [DecidableEq A] in
theorem shrinks_ctxs {ctxs : List R} (fewer : ∀ r ∈ ctxs, r ∈ s.ctxs) :
    Shrinks s { s with ctxs := ctxs } :=
  ⟨fewer, fun _ armed => armed, fun _ => rfl⟩

omit [DecidableEq A] in
theorem shrinks_setCtx (r : R) (ctx : Ctx) : Shrinks s (s.setCtx r ctx) :=
  .of_eq rfl rfl rfl rfl

omit [DecidableEq A] in
/-- A request that is about to add its timer counts already. -/
theorem shrinks_addTimer (place : s.request r = .addTimer) :
    Shrinks s ({ s with timers := Function.update s.timers r true }.setRequest r
      .setTimer) := by
  have others : ∀ other, other ≠ r →
      Function.update s.request r .setTimer other = s.request other :=
    fun _ different => Function.update_of_ne different _ _
  refine ⟨fun _ member => member, ?_, ?_⟩
  · intro other armed
    rcases eq_or_ne other r with rfl | different
    · exact .inl place
    · rcases armed with adds | live | rest
      · exact .inl ((others other different).symm.trans adds)
      · change Function.update s.timers r true other = true at live
        rw [Function.update_of_ne different] at live
        exact .inr (.inl live)
      · exact .inr (.inr rest)
  · intro other
    change (Function.update s.request r .setTimer other).made = _
    rcases eq_or_ne other r with rfl | different
    · rw [Function.update_self, place]
      rfl
    · rw [others other different]

omit [DecidableEq A] in
theorem shrinks_timers (r : R) :
    Shrinks s { s with timers := Function.update s.timers r false } := by
  refine ⟨fun _ member => member, ?_, fun _ => rfl⟩
  rintro other (place | live | rest)
  · exact .inl place
  · rcases eq_or_ne other r with rfl | different
    · cases (Function.update_self other false s.timers).symm.trans live
    · exact .inr (.inl
        ((Function.update_of_ne different false s.timers).symm.trans live))
  · exact .inr (.inr rest)

end State

variable {s t : State R A} {sn : R → UInt32} {r : R}

omit [DecidableEq R] in
theorem eraseCtx_subset {ctxs : List R} {key : UInt32} :
    ∀ r ∈ eraseCtx sn ctxs key, r ∈ ctxs :=
  fun _ member => (List.mem_filter.mp member).1

omit [DecidableEq A] in
theorem shrinks_effect (stage : Stage) : s.Shrinks (effect sn s r stage) := by
  cases stage with
  | erase => exact State.shrinks_ctxs eraseCtx_subset
  | cancelTimer => exact State.shrinks_timers r
  | _ => exact .of_eq rfl rfl rfl rfl

theorem shrinks_work {party : A} (taken : work sn s party = some t) :
    s.Shrinks t := by
  unfold work at taken
  split at taken
  · cases taken
  · cases taken
    exact State.shrinks_goto (by rintro _ ⟨⟩)
  · rename_i r stage rest _
    cases taken
    refine (shrinks_effect stage).trans
      ((State.shrinks_setCtx r _).trans (State.shrinks_goto ?_))
    intro other erasing
    -- no stage is followed by the erase of `onTimeOut`
    exfalso
    revert erasing
    cases stage <;> simp only [Ctx.run] <;> (try split) <;>
      simp [Pc.resume, Pc.erasing]

omit [DecidableEq A] in
theorem shrinks_request (place : s.request r ≠ .addCtx)
    (taken : request sn s r = some t) : s.Shrinks t := by
  cases here : s.request r with
  | addCtx => exact absurd here place
  | addTimer =>
      simp only [request, here] at taken
      cases taken
      exact State.shrinks_addTimer here
  | yieldToHold =>
      simp only [request, here] at taken
      split at taken
      · cases taken
        exact State.shrinks_setRequest (by simp) (by rw [here]; rfl)
      · cases taken
  | finished result =>
      simp only [request, here] at taken
      cases taken
  | setTimer =>
      simp only [request, here] at taken
      cases taken
      refine (State.shrinks_setCtx r _).trans
        (State.shrinks_setRequest (by simp) ?_)
      exact (congrArg Request.made here).symm
  | _ =>
      simp only [request, here] at taken
      cases taken
      exact State.shrinks_setRequest (by simp) (by rw [here]; rfl)

theorem step_shrinks {action : Action R A}
    (place : ∀ r, action = .request r → s.request r ≠ .addCtx)
    (taken : step sn s action = some t) : s.Shrinks t := by
  cases action with
  | request r => exact shrinks_request (place r rfl) taken
  | doRecv party rsp =>
      simp only [step] at taken
      split at taken
      · cases taken
        unfold doRecv
        split
        · exact .of_eq rfl rfl rfl rfl
        · exact (State.shrinks_ctxs eraseCtx_subset).trans
            (State.shrinks_goto (by rintro _ ⟨⟩))
      · cases taken
  | onTimeOut party r =>
      simp only [step] at taken
      split at taken
      · rename_i allowed
        cases taken
        refine State.Shrinks.trans (State.shrinks_goto ?_) (State.shrinks_timers r)
        rintro _ ⟨⟩
        exact allowed.2
      · cases taken
  | innerClose party order =>
      simp only [step] at taken
      split at taken
      · cases taken
        exact (State.shrinks_ctxs (by simp)).trans (State.shrinks_goto (by rintro _ ⟨⟩))
      · cases taken
  | work party => exact shrinks_work taken

/-! The runs. -/

structure Stream (R A : Type) where
  base : State R A
  m_sn : UInt32
  /-- what the caller set, and `ctx->sn` once it is chosen -/
  sn : R → UInt32
  chosen : R → Bool
  /-- a response took the context, its timeout erased or `innerClose` took it -/
  ended : R → Bool

namespace Stream

inductive Act (R A : Type)
  /-- `if (req->getSn() == 0) req->setSn(m_sn.fetch_add(1))` -/
  | setSn (r : R)
  | on (action : Action R A)

variable (w : Stream R A)

def setSn (r : R) : Option (Stream R A) :=
  if w.chosen r then none
  else if w.sn r = 0 then
    some { w with
      m_sn := w.m_sn + 1
      sn := Function.update w.sn r w.m_sn
      chosen := Function.update w.chosen r true }
  else
    some { w with chosen := Function.update w.chosen r true }

/-- The requests that an action ends. -/
def ends : Action R A → R → Bool
  | .doRecv _ rsp, r => getCtx w.sn w.base.ctxs rsp.sn = some r
  | .innerClose _ _, r => r ∈ w.base.ctxs
  | .work party, r => (w.base.pc party).erasing = some r
  | _, _ => false

/-- `request` goes on once the number is chosen. -/
def ready : Action R A → Bool
  | .request r => w.chosen r
  | _ => true

def step : Act R A → Option (Stream R A)
  | .setSn r => w.setSn r
  | .on action =>
      if w.ready action then
        (AsyncSocketStream.step w.sn w.base action).map fun base =>
          { w with
            base := base
            ended := fun r => w.ended r || w.ends action r }
      else none

structure Started (w : Stream R A) : Prop where
  base : Initial w.base
  m_sn : w.m_sn = 0
  chosen : ∀ r, w.chosen r = false
  ended : ∀ r, w.ended r = false

/-- No context is added under the number of another request that has one or
whose timeout has yet to erase. -/
def Fresh (w : Stream R A) : Act R A → Prop
  | .on (.request r) => w.base.request r = .addCtx →
      ∀ other, other ≠ r → w.base.Live other → w.sn other ≠ w.sn r
  | _ => True

/-- The context was added, and nothing has ended the request. -/
def Outstanding (w : Stream R A) (r : R) : Prop :=
  (w.base.request r).made = true ∧ w.ended r = false

structure Inv (w : Stream R A) : Prop where
  distinct : ∀ r other, w.base.Live r → w.base.Live other →
    w.sn r = w.sn other → r = other
  made : ∀ r, w.base.Live r → (w.base.request r).made = true
  chosen : ∀ r, (w.base.request r).made = true → w.chosen r = true
  listed : ∀ r, w.Outstanding r → r ∈ w.base.ctxs

variable {w} {next : Stream R A} {r : R}

omit [DecidableEq A] in
theorem Inv.setSn (inv : w.Inv) (taken : w.setSn r = some next) : next.Inv := by
  obtain ⟨unchosen, base, ended, others, chosen⟩ : w.chosen r = false ∧
      next.base = w.base ∧ next.ended = w.ended ∧
      (∀ other, other ≠ r → next.sn other = w.sn other) ∧
      next.chosen = Function.update w.chosen r true := by
    unfold Stream.setSn at taken
    split at taken
    · cases taken
    · rename_i unchosen
      split at taken
      · cases taken
        exact ⟨by simpa using unchosen, rfl, rfl,
          fun _ different => Function.update_of_ne different _ _, rfl⟩
      · cases taken
        exact ⟨by simpa using unchosen, rfl, rfl, fun _ _ => rfl, rfl⟩
  have apart : ∀ other, w.base.Live other → other ≠ r := by
    rintro other live rfl
    rw [inv.chosen other (inv.made other live)] at unchosen
    cases unchosen
  refine ⟨?_, ?_, ?_, ?_⟩
  · intro one other first second same
    rw [base] at first second
    rw [others one (apart one first), others other (apart other second)] at same
    exact inv.distinct one other first second same
  · rw [base]
    exact inv.made
  · intro other made
    rw [base] at made
    rw [chosen]
    rcases eq_or_ne other r with rfl | different
    · exact Function.update_self _ _ _
    · rw [Function.update_of_ne different]
      exact inv.chosen other made
  · intro other outstanding
    unfold Outstanding at outstanding
    rw [base, ended] at outstanding
    rw [base]
    exact inv.listed other outstanding

omit [DecidableEq R] [DecidableEq A] in
/-- The context of an outstanding request is the one under its number. -/
theorem Inv.getCtx (inv : w.Inv) (member : r ∈ w.base.ctxs) :
    getCtx w.sn w.base.ctxs (w.sn r) = some r := by
  have present : (AsyncSocketStream.getCtx w.sn w.base.ctxs (w.sn r)).isSome := by
    rw [AsyncSocketStream.getCtx, List.find?_isSome]
    exact ⟨r, member, by simp⟩
  obtain ⟨other, found⟩ := Option.isSome_iff_exists.mp present
  obtain ⟨inside, same⟩ := getCtx_eq_some found
  rw [found, inv.distinct other r (.inl inside) (.inl member) same]

omit [DecidableEq R] [DecidableEq A] in
/-- Erasing the number of a live request leaves the others. -/
theorem Inv.mem_eraseCtx (inv : w.Inv) (live : w.base.Live r) {other : R}
    (member : other ∈ w.base.ctxs) (different : other ≠ r) :
    other ∈ eraseCtx w.sn w.base.ctxs (w.sn r) := by
  refine List.mem_filter.mpr ⟨member, ?_⟩
  simp only [ne_eq, decide_eq_true_eq]
  intro same
  exact different (inv.distinct other r (.inl member) live same)

omit [DecidableEq A] in
theorem request_ctxs {s t : State R A} {sn : R → UInt32}
    (place : s.request r ≠ .addCtx) (taken : request sn s r = some t) :
    t.ctxs = s.ctxs := by
  cases here : s.request r with
  | addCtx => exact absurd here place
  | yieldToHold =>
      simp only [request, here] at taken
      split at taken
      · cases taken
        rfl
      · cases taken
  | finished result =>
      simp only [request, here] at taken
      cases taken
  | _ =>
      simp only [request, here] at taken
      cases taken
      rfl

/-- A context goes only when its request ends. -/
theorem Inv.stays (inv : w.Inv) {action : Action R A} {base : State R A}
    (place : ∀ r, action = .request r → w.base.request r ≠ .addCtx)
    (taken : AsyncSocketStream.step w.sn w.base action = some base)
    (member : r ∈ w.base.ctxs) (going : w.ends action r = false) :
    r ∈ base.ctxs := by
  cases action with
  | request current =>
      rw [request_ctxs (place current rfl) taken]
      exact member
  | doRecv party rsp =>
      simp only [AsyncSocketStream.step] at taken
      split at taken
      · cases taken
        unfold doRecv
        split
        · exact member
        · rename_i current found
          obtain ⟨inside, same⟩ := getCtx_eq_some found
          have different : r ≠ current := by
            rintro rfl
            simp [ends, found] at going
          rw [← same]
          exact inv.mem_eraseCtx (.inl inside) member different
      · cases taken
  | onTimeOut party current =>
      simp only [AsyncSocketStream.step] at taken
      split at taken
      · cases taken
        exact member
      · cases taken
  | innerClose party order => simp [ends, member] at going
  | work party =>
      simp only [AsyncSocketStream.step, work] at taken
      split at taken
      · cases taken
      · cases taken
        exact member
      · rename_i current stage rest place
        cases taken
        cases stage with
        | erase =>
            have different : r ≠ current := by
              rintro rfl
              simp [ends, place, Pc.erasing] at going
            have erasing : (w.base.pc party).erasing = some current := by
              rw [place]
              rfl
            exact inv.mem_eraseCtx (.inr (.inr (.inr ⟨party, erasing⟩))) member
              different
        | _ => exact member

theorem Inv.shrinks (inv : w.Inv) {action : Action R A} {base : State R A}
    (place : ∀ r, action = .request r → w.base.request r ≠ .addCtx)
    (taken : AsyncSocketStream.step w.sn w.base action = some base) :
    Inv { w with
      base := base
      ended := fun r => w.ended r || w.ends action r } := by
  have fewer := step_shrinks place taken
  refine ⟨?_, ?_, ?_, ?_⟩
  · intro one other first second
    exact inv.distinct one other (fewer.live first) (fewer.live second)
  · intro other live
    rw [fewer.made]
    exact inv.made other (fewer.live live)
  · intro other made
    rw [fewer.made] at made
    exact inv.chosen other made
  · rintro other ⟨made, ended⟩
    rw [fewer.made] at made
    obtain ⟨before, going⟩ := Bool.or_eq_false_iff.mp ended
    exact inv.stays place taken (inv.listed other ⟨made, before⟩) going

omit [DecidableEq A] in
theorem Inv.addCtx (inv : w.Inv) (place : w.base.request r = .addCtx)
    (chosen : w.chosen r = true) (fresh : w.Fresh (.on (.request r)))
    {base : State R A} (taken : request w.sn w.base r = some base) :
    Inv { w with
      base := base
      ended := fun other => w.ended other || w.ends (.request r) other } := by
  have unmade : ¬w.base.Live r := by
    intro live
    have made := inv.made r live
    rw [place] at made
    cases made
  have apart : ∀ other, w.base.Live other → other ≠ r ∧ w.sn other ≠ w.sn r := by
    intro other live
    have different : other ≠ r := fun same => unmade (same ▸ live)
    exact ⟨different, fresh place other different live⟩
  have ctxs : AsyncSocketStream.addCtx w.sn w.base.ctxs r = r :: w.base.ctxs := by
    refine if_neg fun present => ?_
    obtain ⟨other, inside, same⟩ := List.any_eq_true.mp present
    exact (apart other (.inl inside)).2 (of_decide_eq_true same)
  simp only [request, place] at taken
  rw [ctxs] at taken
  cases taken
  have requests : ∀ other, other ≠ r →
      Function.update w.base.request r .addTimer other = w.base.request other :=
    fun _ different => Function.update_of_ne different _ _
  have live : ∀ other, State.Live ((({ w.base with
        ctxs := r :: w.base.ctxs } : State R A).setCtx r .new).setRequest r
          .addTimer) other → other = r ∨ w.base.Live other := by
    intro other live
    rcases eq_or_ne other r with same | different
    · exact .inl same
    · right
      rcases live with member | adds | rest
      · exact .inl ((List.mem_cons.mp member).resolve_left different)
      · exact .inr (.inl ((requests other different).symm.trans adds))
      · exact .inr (.inr rest)
  refine ⟨?_, ?_, ?_, ?_⟩
  · intro one other first second same
    rcases live one first with rfl | here
    · rcases live other second with rfl | there
      · rfl
      · exact absurd same.symm (apart other there).2
    · rcases live other second with rfl | there
      · exact absurd same (apart one here).2
      · exact inv.distinct one other here there same
  · intro other alive
    change (Function.update w.base.request r .addTimer other).made = true
    rcases live other alive with rfl | alive
    · rw [Function.update_self]
      rfl
    · rw [requests other (apart other alive).1]
      exact inv.made other alive
  · intro other made
    change (Function.update w.base.request r .addTimer other).made = true at made
    rcases eq_or_ne other r with rfl | different
    · exact chosen
    · rw [requests other different] at made
      exact inv.chosen other made
  · rintro other ⟨made, ended⟩
    change (Function.update w.base.request r .addTimer other).made = true at made
    rcases eq_or_ne other r with rfl | different
    · exact List.mem_cons_self
    · rw [requests other different] at made
      obtain ⟨before, -⟩ := Bool.or_eq_false_iff.mp ended
      exact List.mem_cons_of_mem _ (inv.listed other ⟨made, before⟩)

theorem inv_step {act : Act R A} (inv : w.Inv) (fresh : w.Fresh act)
    (taken : w.step act = some next) : next.Inv := by
  cases act with
  | setSn r => exact inv.setSn taken
  | on action =>
      simp only [step] at taken
      split at taken
      · rename_i ready
        obtain ⟨base, moved, rfl⟩ := Option.map_eq_some_iff.mp taken
        by_cases adds : ∃ r, action = .request r ∧ w.base.request r = .addCtx
        · obtain ⟨r, rfl, place⟩ := adds
          exact inv.addCtx place ready fresh moved
        · refine inv.shrinks ?_ moved
          intro r same place
          exact adds ⟨r, same, place⟩
      · cases taken

omit [DecidableEq R] [DecidableEq A] in
theorem Started.inv (started : Started w) : w.Inv := by
  have unmade : ∀ r, (w.base.request r).made = false := by
    intro r
    rw [started.base.request]
    rfl
  have dead : ∀ r, ¬w.base.Live r := by
    rintro r (member | adds | live | ⟨party, place⟩)
    · rw [started.base.ctxs] at member
      cases member
    · rw [started.base.request] at adds
      cases adds
    · rw [started.base.timers] at live
      cases live
    · rw [started.base.pc] at place
      cases place
  refine ⟨?_, ?_, ?_, ?_⟩
  · intro r _ live
    exact absurd live (dead r)
  · intro r live
    exact absurd live (dead r)
  · intro r made
    rw [unmade] at made
    cases made
  · rintro r ⟨made, -⟩
    rw [unmade] at made
    cases made

theorem inv_run (reached : Reach Started (StepWhen step Fresh) w) : w.Inv :=
  @Reach.invariant _ _ _ _ Inv (fun _ started => started.inv)
    (fun _ _ _ inv taken => inv_step inv taken.1 taken.2) w reached

/-- Every outstanding request has its own context under its number, a response
with this number goes to it and leaves the other contexts, and so does the erase
of a timeout. -/
theorem responses_match (reached : Reach Started (StepWhen step Fresh) w) :
    (∀ r, w.Outstanding r → r ∈ w.base.ctxs ∧
      getCtx w.sn w.base.ctxs (w.sn r) = some r) ∧
    (∀ r party rsp next, w.Outstanding r → rsp.sn = w.sn r →
      w.step (.on (.doRecv party rsp)) = some next →
      next.base.pc = Function.update w.base.pc party (.on r (.setResult rsp) []) ∧
        next.ended r = true ∧
        ∀ other, other ≠ r → next.ended other = w.ended other ∧
          (other ∈ w.base.ctxs → other ∈ next.base.ctxs)) ∧
    ∀ r party next, (w.base.pc party).erasing = some r →
      w.step (.on (.work party)) = some next →
      ∀ other, other ≠ r → other ∈ w.base.ctxs → other ∈ next.base.ctxs := by
  have inv := inv_run reached
  refine ⟨?_, ?_, ?_⟩
  · intro r outstanding
    exact ⟨inv.listed r outstanding, inv.getCtx (inv.listed r outstanding)⟩
  · intro r party rsp next outstanding number taken
    have live := inv.listed r outstanding
    have found := inv.getCtx live
    rw [← number] at found
    obtain ⟨base, moved, rfl⟩ := Option.map_eq_some_iff.mp taken
    simp only [AsyncSocketStream.step] at moved
    split at moved
    · cases moved
      unfold doRecv
      rw [found]
      refine ⟨rfl, ?_, ?_⟩
      · simp [ends, found]
      · intro other different
        refine ⟨by simp [ends, found, different.symm], fun member => ?_⟩
        rw [number]
        exact inv.mem_eraseCtx (.inl live) member different
    · cases moved
  · intro r party next place taken other different member
    obtain ⟨base, moved, rfl⟩ := Option.map_eq_some_iff.mp taken
    refine inv.stays (by simp) moved member ?_
    simp [ends, place, different.symm]

/-- One stream. -/
def fresh (sn : Bool → UInt32) : Stream Bool Unit where
  base := ⟨[], fun _ => .new, fun _ => .addCtx, fun _ => false, fun _ => 0,
    fun _ => .idle⟩
  m_sn := 0
  sn := sn
  chosen _ := false
  ended _ := false

theorem fresh_started (sn : Bool → UInt32) : Started (fresh sn) :=
  ⟨⟨rfl, fun _ => rfl, fun _ => rfl, fun _ => rfl, fun _ => rfl⟩, rfl,
    fun _ => rfl, fun _ => rfl⟩

instance [Fintype A] (s : State R A) (r : R) : Decidable (s.Live r) :=
  inferInstanceAs (Decidable (_ ∨ _ ∨ _ ∨ ∃ party, (s.pc party).erasing = some r))

instance [Fintype R] [Fintype A] (w : Stream R A) :
    (act : Act R A) → Decidable (w.Fresh act)
  | .setSn _ => inferInstanceAs (Decidable True)
  | .on (.request r) => inferInstanceAs (Decidable (w.base.request r = .addCtx →
      ∀ other, other ≠ r → w.base.Live other → w.sn other ≠ w.sn r))
  | .on (.doRecv _ _) => inferInstanceAs (Decidable True)
  | .on (.onTimeOut _ _) => inferInstanceAs (Decidable True)
  | .on (.innerClose _ _) => inferInstanceAs (Decidable True)
  | .on (.work _) => inferInstanceAs (Decidable True)

/-- Numbers from the counter and from the caller. -/
theorem responses_match_two :
    ∃ w : Stream Bool Unit,
      w.Outstanding false ∧ w.Outstanding true ∧
      getCtx w.sn w.base.ctxs 0 = some false ∧
      getCtx w.sn w.base.ctxs 7 = some true := by
  obtain ⟨w, ran, first, second, zero, seven⟩ : ∃ w,
      exec (guarded step Fresh) (fresh fun r => if r then 7 else 0)
        [.setSn false, .setSn true, .on (.request true), .on (.request false),
          .on (.request false)] = some w ∧
      w.Outstanding false ∧ w.Outstanding true ∧ w.sn false = 0 ∧
      w.sn true = 7 := ⟨_, rfl, ⟨rfl, rfl⟩, ⟨rfl, rfl⟩, rfl, rfl⟩
  have matched := (responses_match
    (reach_guarded (.start _ (fresh_started _)) ran)).1
  refine ⟨w, first, second, ?_, ?_⟩
  · rw [← zero]
    exact (matched false first).2
  · rw [← seven]
    exact (matched true second).2

/-- Two callers chose the same number. The second request has no context, the
response to it would complete the first, and its timeout takes the context of
the first out of `m_ctxs`. -/
theorem responses_mixed :
    ∃ w next : Stream Bool Unit,
      Reach Started (StepOf step) w ∧
      w.Outstanding false ∧ w.Outstanding true ∧ w.sn false = 7 ∧
      w.sn true = 7 ∧ w.base.ctxs = [false] ∧
      (w.base.pc ()).erasing = some true ∧
      w.step (.on (.work ())) = some next ∧
      next.Outstanding false ∧ next.base.ctxs = [] := by
  obtain ⟨w, ran, next, rest⟩ : ∃ w : Stream Bool Unit,
      exec step (fresh fun _ => 7)
        [.setSn false, .setSn true, .on (.request false), .on (.request true),
          .on (.request true), .on (.onTimeOut () true)] = some w ∧
      ∃ next, w.Outstanding false ∧ w.Outstanding true ∧ w.sn false = 7 ∧
        w.sn true = 7 ∧ w.base.ctxs = [false] ∧
        (w.base.pc ()).erasing = some true ∧
        w.step (.on (.work ())) = some next ∧
        next.Outstanding false ∧ next.base.ctxs = [] :=
    ⟨_, rfl, _, ⟨rfl, rfl⟩, ⟨rfl, rfl⟩, rfl, rfl, rfl, rfl, rfl, ⟨rfl, rfl⟩, rfl⟩
  exact ⟨w, next, reach_exec (.start _ (fresh_started _)) ran, rest⟩

end Stream

end Sylar.AsyncSocketStream
