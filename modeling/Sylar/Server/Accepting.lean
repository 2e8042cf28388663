import Mathlib.Data.Fintype.Basic
import Mathlib.Data.List.Nodup
import Mathlib.Logic.Function.Basic
import Sylar.Logic.Reach

namespace Sylar.Accepting

open Logic

/-! A `TcpServer` that is bound, started and stopped again and again, with one fiber in
`startAccept` for each listening socket and each start. `S` are the sockets; the starts
are counted. The server and these fibers are the only owners of a socket. -/

/-- Where a fiber is in `startAccept`. -/
inductive Stage
  /-- not scheduled -/
  | none
  /-- before the condition of the loop -/
  | top
  /-- in `accept`, before `addEvent` is through -/
  | called
  /-- `YieldToHold` behind `addEvent`. A completion that reports a failure is not
  dequeued, and none is `pending` after it. The timer may have `expired` already. -/
  | waiting (pending expired : Bool)
  /-- The event has been triggered, by a client who has connected or not. -/
  | resumed (connected expired : Bool)
  /-- `s_accept` has answered true. -/
  | accepted (connected : Bool)
  | done
  deriving DecidableEq

namespace Stage

def live : Stage → Bool
  | none => false
  | done => false
  | _ => true

/-- Inside of `s_accept`, up to its wait. -/
def listens : Stage → Bool
  | called => true
  | waiting _ _ => true
  | _ => false

/-- `s_accept` answers true, or has done so, for nobody. -/
def phantom : Stage → Bool
  | resumed false false => true
  | accepted false => true
  | _ => false

/-- `cancelAll` resumes what waits. -/
def cancelled : Stage → Stage
  | waiting _ expired => resumed false expired
  | other => other

theorem live_of_listens {stage : Stage} (listens : stage.listens = true) :
    stage.live = true := by
  cases stage with
  | called => rfl
  | waiting pending expired => rfl
  | none => cases listens
  | top => cases listens
  | resumed connected expired => cases listens
  | accepted connected => cases listens
  | done => cases listens

theorem live_of_phantom {stage : Stage} (phantom : stage.phantom = true) :
    stage.live = true := by
  cases stage with
  | resumed connected expired => rfl
  | accepted connected => rfl
  | none => cases phantom
  | top => cases phantom
  | called => cases phantom
  | waiting pending expired => cases phantom
  | done => cases phantom

theorem live_cancelled (stage : Stage) : stage.cancelled.live = stage.live := by
  cases stage <;> rfl

/-- Only a call before `addEvent` is not resumed. -/
theorem listens_cancelled {stage : Stage} (past : stage ≠ .called) :
    stage.cancelled.listens = false := by
  cases stage with
  | called => exact absurd rfl past
  | _ => rfl

end Stage

/-- What `AcceptEx` answers, and whether the timer expires before `addEvent`. -/
inductive Outcome
  | connected
  | pending (expired : Bool)
  | failed

structure State (S : Type) where
  m_isStop : Bool
  m_socks : List S
  /-- `m_sock` is not -1, and has a `FdCtx`. -/
  isOpen : S → Bool
  /-- A socket is bound at most once. -/
  bound : S → Bool
  /-- A `bind` that failed has taken the socket out of `m_socks`. -/
  dropped : S → Bool
  starts : Nat
  stage : Nat → S → Stage
  /-- the calls of `stop` whose lambda has not run -/
  stops : Nat
  /-- what `handleClient` is scheduled for: the listening socket, and whether somebody
  has connected -/
  handed : List (S × Bool)
  /-- A null `FdCtx` was followed, or `addEvent` has found its event there already. -/
  crashed : Bool

inductive Action (S : Type)
  | bind (sock : S)
  /-- a call of `bind` that fails -/
  | refuse
  | start
  | stop
  /-- the lambda of `stop` -/
  | close
  /-- the condition of the loop -/
  | check (g : Nat) (sock : S)
  | accept (g : Nat) (sock : S) (outcome : Outcome)
  | complete (g : Nat) (sock : S) (success : Bool)
  /-- The timer of `s_accept` cancels the event, where it is there. -/
  | expire (g : Nat) (sock : S)
  /-- `s_accept` returns behind `YieldToHold`. -/
  | answer (g : Nat) (sock : S)
  /-- `init` of the client succeeds or not. -/
  | hand (g : Nat) (sock : S) (init : Bool)

variable {S : Type} [DecidableEq S]

namespace State

variable (s : State S)

def move (g : Nat) (sock : S) (stage : Stage) : State S :=
  { s with stage := Function.update s.stage g (Function.update (s.stage g) sock stage) }

/-- A fiber is to run with the socket, or runs. -/
def held (sock : S) : Bool :=
  (List.range s.starts).any fun g => (s.stage g sock).live

/-- A socket without an owner is closed by its destructor. -/
def release : State S :=
  { s with isOpen := fun sock =>
      s.isOpen sock && (decide (sock ∈ s.m_socks) || s.held sock) }

def refuse : State S :=
  { s with
    m_socks := []
    dropped := fun sock => s.dropped sock || decide (sock ∈ s.m_socks) }.release

/-- A fiber for each of the sockets. -/
def schedule : State S :=
  { s with
    m_isStop := false
    starts := s.starts + 1
    stage := Function.update s.stage s.starts fun sock =>
      if sock ∈ s.m_socks then .top else .none }

def start : State S :=
  if s.m_isStop then s.schedule else s

def close : State S :=
  { s with
    stops := s.stops - 1
    stage := fun g sock =>
      if sock ∈ s.m_socks then (s.stage g sock).cancelled else s.stage g sock
    isOpen := fun sock => s.isOpen sock && decide (sock ∉ s.m_socks)
    m_socks := [] }

/-- Some fiber waits in `s_accept` on the socket. -/
def registered (sock : S) : Bool :=
  (List.range s.starts).any fun g =>
    match s.stage g sock with
    | .waiting _ _ => true
    | _ => false

def accept (g : Nat) (sock : S) : Outcome → State S
  | .connected => s.move g sock (.accepted true)
  | .failed => s.move g sock .top
  | .pending expired =>
      if s.registered sock then { s with crashed := true }
      else s.move g sock (.waiting true expired)

def step : Action S → Option (State S)
  | .bind sock =>
      if s.bound sock then none
      else
        some { s with
          m_socks := s.m_socks ++ [sock]
          isOpen := Function.update s.isOpen sock true
          bound := Function.update s.bound sock true }
  | .refuse => some s.refuse
  | .start => some s.start
  | .stop => some { s with m_isStop := true, stops := s.stops + 1 }
  | .close => if s.stops = 0 then none else some s.close
  | .check g sock =>
      match s.stage g sock with
      | .top =>
          some (if s.m_isStop then (s.move g sock .done).release
            else s.move g sock .called)
      | _ => none
  | .accept g sock outcome =>
      match s.stage g sock with
      | .called =>
          some (if s.isOpen sock then s.accept g sock outcome
            else { s with crashed := true })
      | _ => none
  | .complete g sock success =>
      match s.stage g sock with
      | .waiting true expired =>
          some (s.move g sock
            (if success then .resumed true expired else .waiting false expired))
      | _ => none
  | .expire g sock =>
      match s.stage g sock with
      | .waiting _ false => some (s.move g sock (.resumed false true))
      | .resumed connected false => some (s.move g sock (.resumed connected true))
      | _ => none
  | .answer g sock =>
      match s.stage g sock with
      | .resumed connected expired =>
          some (s.move g sock (if expired then .top else .accepted connected))
      | _ => none
  | .hand g sock init =>
      match s.stage g sock with
      | .accepted connected =>
          some { s.move g sock .top with
            handed := s.handed ++ if init then [(sock, connected)] else [] }
      | _ => none

structure Initial : Prop where
  m_isStop : s.m_isStop = true
  m_socks : s.m_socks = []
  isOpen : ∀ sock, s.isOpen sock = false
  dropped : ∀ sock, s.dropped sock = false
  stage : ∀ g sock, s.stage g sock = .none
  starts : s.starts = 0
  stops : s.stops = 0
  handed : s.handed = []
  crashed : s.crashed = false

/-- No fiber is past the condition when its socket is closed, as with one thread to
run them; and a server starts again only after it has come to rest, but for the loops
that a failed `bind` has left alone. -/
def Permits : Action S → Prop
  | .start => s.m_isStop = true → s.stops = 0 ∧ ∀ g < s.starts, ∀ sock,
      (s.stage g sock).live = true → s.dropped sock = true
  | .close => ∀ g < s.starts, ∀ sock ∈ s.m_socks, s.stage g sock ≠ .called
  | _ => True

structure Inv : Prop where
  calm : s.crashed = false
  later : ∀ g sock, s.starts ≤ g → s.stage g sock = .none
  known : ∀ g sock, s.stage g sock ≠ .none → s.bound sock = true
  /-- one loop for a socket -/
  own : ∀ g h sock, (s.stage g sock).live = true → (s.stage h sock).live = true → g = h
  listening : ∀ g sock, (s.stage g sock).listens = true →
    sock ∈ s.m_socks ∧ (s.m_isStop = true → s.stops ≠ 0) ∨ s.dropped sock = true
  opened : ∀ sock, s.isOpen sock = true ↔
    sock ∈ s.m_socks ∨ s.dropped sock = true ∧ s.held sock = true
  born : ∀ sock ∈ s.m_socks, s.bound sock = true
  apart : ∀ sock, s.dropped sock = true → sock ∉ s.m_socks ∧ s.bound sock = true
  running : s.m_isStop = false → s.stops = 0 ∧ ∀ g sock, (s.stage g sock).live = true →
    sock ∈ s.m_socks ∨ s.dropped sock = true
  /-- A client who has not connected comes from a socket that was closed, once. -/
  phantom : ∀ g sock, (s.stage g sock).phantom = true →
    sock ∉ s.m_socks ∧ s.dropped sock = false ∧ (sock, false) ∉ s.handed
  told : ∀ sock, (sock, false) ∈ s.handed →
    sock ∉ s.m_socks ∧ s.dropped sock = false ∧ s.bound sock = true
  once : ∀ sock, s.handed.count (sock, false) ≤ 1

variable {s} {next : State S} {g : Nat} {sock : S} {stage : Stage}

theorem move_stage (h : Nat) (other : S) :
    (s.move g sock stage).stage h other =
      if h = g ∧ other = sock then stage else s.stage h other := by
  simp only [move, Function.update_apply]
  grind

omit [DecidableEq S] in
theorem held_iff : s.held sock = true ↔
    ∃ g, g < s.starts ∧ (s.stage g sock).live = true := by
  simp [held]

omit [DecidableEq S] in
theorem held_of_live (before : g < s.starts) (live : (s.stage g sock).live = true) :
    s.held sock = true :=
  held_iff.mpr ⟨g, before, live⟩

theorem held_move (before : (s.stage g sock).live = true) (after : stage.live = true)
    (other : S) : (s.move g sock stage).held other = s.held other := by
  apply congrArg (List.any (List.range s.starts))
  funext h
  rw [move_stage]
  split
  · rename_i same
    rw [same.1, same.2, after, before]
  · rfl

/-- A fiber that has ended holds its socket no more. -/
theorem held_done {other : S} (holds : (s.move g sock .done).held other = true) :
    s.held other = true := by
  obtain ⟨h, before, live⟩ := held_iff.mp holds
  rw [move_stage] at live
  split at live
  · cases live
  · exact held_of_live before live

namespace Inv

theorem before (inv : s.Inv) (live : (s.stage g sock).live = true) : g < s.starts := by
  apply Nat.lt_of_not_le
  intro after
  rw [inv.later g sock after] at live
  cases live

theorem named (inv : s.Inv) (live : (s.stage g sock).live = true) : s.bound sock = true := by
  apply inv.known g sock
  intro none
  rw [none] at live
  cases live

theorem holds (inv : s.Inv) (live : (s.stage g sock).live = true) : s.held sock = true :=
  held_of_live (inv.before live) live

/-- A fiber goes on or ends, and `isOpen` says which sockets have an owner then. -/
theorem moved (inv : s.Inv) (live : (s.stage g sock).live = true)
    (listens : stage.listens = true →
      (s.stage g sock).listens = true ∨ s.m_isStop = false)
    (real : stage.phantom = true → (s.stage g sock).phantom = true) {isOpen : S → Bool}
    (opened : ∀ other, isOpen other = true ↔ other ∈ s.m_socks ∨
      s.dropped other = true ∧ (s.move g sock stage).held other = true) :
    ({ s.move g sock stage with isOpen := isOpen } : State S).Inv where
  calm := inv.calm
  later h other after := by
    have before := inv.before live
    rw [move_stage, if_neg]
    · exact inv.later h other after
    · rintro ⟨rfl, -⟩
      exact absurd before (Nat.not_lt_of_le after)
  known h other started := by
    rw [move_stage] at started
    split at started
    · rename_i same
      rw [same.2]
      exact inv.named live
    · exact inv.known h other started
  own h i other one two := by
    rw [move_stage] at one two
    have unique := inv.own
    grind
  listening h other inside := by
    rw [move_stage] at inside
    split at inside
    · rename_i same
      rw [same.2]
      rcases listens inside with before | running
      · exact inv.listening g sock before
      · refine ((inv.running running).2 g sock live).imp_left fun member => ?_
        refine ⟨member, fun stopped => ?_⟩
        change s.m_isStop = true at stopped
        rw [running] at stopped
        cases stopped
    · exact inv.listening h other inside
  opened := opened
  born := inv.born
  apart := inv.apart
  running started := by
    refine ⟨(inv.running started).1, fun h other goes => ?_⟩
    rw [move_stage] at goes
    split at goes
    · rename_i same
      rw [same.2]
      exact (inv.running started).2 g sock live
    · exact (inv.running started).2 h other goes
  phantom h other false := by
    rw [move_stage] at false
    split at false
    · rename_i same
      rw [same.2]
      exact inv.phantom g sock (real false)
    · exact inv.phantom h other false
  told := inv.told
  once := inv.once

/-- A loop goes on. -/
theorem move (inv : s.Inv) (live : (s.stage g sock).live = true)
    (stays : stage.live = true)
    (listens : stage.listens = true →
      (s.stage g sock).listens = true ∨ s.m_isStop = false)
    (real : stage.phantom = true → (s.stage g sock).phantom = true) :
    (s.move g sock stage).Inv := by
  apply inv.moved live listens real
  intro other
  rw [held_move live stays]
  exact inv.opened other

/-- The loop ends. -/
theorem finish (inv : s.Inv) (live : (s.stage g sock).live = true) :
    (s.move g sock .done).release.Inv := by
  refine @moved S _ s g sock .done inv live nofun nofun _ fun other => ?_
  have opened := inv.opened other
  have fewer := @held_done S _ s g sock other
  change (s.isOpen other && (decide (other ∈ s.m_socks) || _)) = true ↔ _
  rw [Bool.and_eq_true, Bool.or_eq_true, decide_eq_true_eq, opened]
  grind

theorem refuse (inv : s.Inv) : s.refuse.Inv where
  calm := inv.calm
  later := inv.later
  known := inv.known
  own := inv.own
  listening h other listens := by
    right
    change (s.dropped other || decide (other ∈ s.m_socks)) = true
    rw [Bool.or_eq_true, decide_eq_true_eq]
    rcases inv.listening h other listens with inside | out
    · exact .inr inside.1
    · exact .inl out
  opened other := by
    have opened := inv.opened other
    change (s.isOpen other && (decide (other ∈ []) || s.held other)) = true ↔
      other ∈ [] ∨ (s.dropped other || decide (other ∈ s.m_socks)) = true ∧
        s.held other = true
    grind
  born other member := absurd member List.not_mem_nil
  apart other out := by
    refine ⟨List.not_mem_nil, ?_⟩
    rcases Bool.or_eq_true_iff.mp out with before | now
    · exact (inv.apart other before).2
    · exact inv.born other (of_decide_eq_true now)
  running started := by
    refine ⟨(inv.running started).1, fun h other goes => .inr ?_⟩
    change (s.dropped other || decide (other ∈ s.m_socks)) = true
    rw [Bool.or_eq_true, decide_eq_true_eq]
    exact ((inv.running started).2 h other goes).symm
  phantom h other false := by
    obtain ⟨closed, kept, fresh⟩ := inv.phantom h other false
    exact ⟨List.not_mem_nil, by simp [State.refuse, release, kept, closed], fresh⟩
  told other member := by
    obtain ⟨closed, kept, bound⟩ := inv.told other member
    exact ⟨List.not_mem_nil, by simp [State.refuse, release, kept, closed], bound⟩
  once := inv.once

/-- The client goes to `handleClient`, or is dropped. -/
theorem hand (inv : s.Inv) {connected : Bool}
    (accepted : s.stage g sock = .accepted connected) (init : Bool) :
    ({ s.move g sock .top with
      handed := s.handed ++ if init then [(sock, connected)] else [] } : State S).Inv := by
  have live : (s.stage g sock).live = true := by rw [accepted]; rfl
  have moved : (s.move g sock .top).Inv := inv.move live rfl nofun nofun
  cases init with
  | false =>
      rw [if_neg Bool.false_ne_true, List.append_nil]
      exact moved
  | true =>
  rw [if_pos rfl]
  have alone (h : Nat) (other : S)
      (false : ((s.move g sock .top).stage h other).phantom = true) : other ≠ sock := by
    rintro rfl
    rw [move_stage] at false
    split at false
    · cases false
    · rename_i different
      exact different ⟨inv.own h g other (Stage.live_of_phantom false) live, rfl⟩
  constructor
  · exact moved.calm
  · exact moved.later
  · exact moved.known
  · exact moved.own
  · exact moved.listening
  · exact moved.opened
  · exact moved.born
  · exact moved.apart
  · exact moved.running
  · intro h other false
    obtain ⟨closed, kept, fresh⟩ := moved.phantom h other false
    refine ⟨closed, kept, fun member => ?_⟩
    rcases List.mem_append.mp member with before | last
    · exact fresh before
    · exact alone h other false (congrArg Prod.fst (List.mem_singleton.mp last))
  · intro other member
    rcases List.mem_append.mp member with before | last
    · exact moved.told other before
    · cases List.mem_singleton.mp last
      obtain ⟨closed, kept, -⟩ := inv.phantom g sock (by rw [accepted]; rfl)
      exact ⟨closed, kept, inv.named live⟩
  · intro other
    have before := inv.once other
    rw [List.count_append]
    by_cases same : (sock, connected) = (other, false)
    · cases same
      have fresh := List.count_eq_zero.mpr (inv.phantom g sock (by rw [accepted]; rfl)).2.2
      simp [fresh]
    · rw [List.count_singleton, if_neg (by simpa using same)]
      exact before

theorem bind (inv : s.Inv) (free : s.bound sock = false) :
    ({ s with
      m_socks := s.m_socks ++ [sock]
      isOpen := Function.update s.isOpen sock true
      bound := Function.update s.bound sock true } : State S).Inv := by
  have apart {other : S} (bound : s.bound other = true) : other ≠ sock := by
    rintro rfl
    rw [free] at bound
    cases bound
  have unbound {other : S} (bound : s.bound other = true) :
      Function.update s.bound sock true other = true := by
    rw [Function.update_of_ne (apart bound)]
    exact bound
  have outside {other : S} (bound : s.bound other = true) (closed : other ∉ s.m_socks) :
      other ∉ s.m_socks ++ [sock] := by
    simp [closed, apart bound]
  constructor
  · exact inv.calm
  · exact inv.later
  · exact fun h other started => unbound (inv.known h other started)
  · exact inv.own
  · intro h other listens
    exact (inv.listening h other listens).imp_left
      (And.imp_left (List.mem_append_left _))
  · intro other
    by_cases same : other = sock
    · subst same
      simp
    · simp only [Function.update_of_ne same, List.mem_append, List.mem_singleton, same,
        or_false]
      exact inv.opened other
  · intro other member
    rcases List.mem_append.mp member with before | last
    · exact unbound (inv.born other before)
    · cases List.mem_singleton.mp last
      exact Function.update_self ..
  · intro other out
    obtain ⟨closed, bound⟩ := inv.apart other out
    exact ⟨outside bound closed, unbound bound⟩
  · intro started
    obtain ⟨idle, live⟩ := inv.running started
    exact ⟨idle, fun h other goes =>
      (live h other goes).imp_left (List.mem_append_left _)⟩
  · intro h other false
    obtain ⟨closed, kept, fresh⟩ := inv.phantom h other false
    have bound := inv.named (Stage.live_of_phantom false)
    exact ⟨outside bound closed, kept, fresh⟩
  · intro other member
    obtain ⟨closed, kept, bound⟩ := inv.told other member
    exact ⟨outside bound closed, kept, unbound bound⟩
  · exact inv.once

/-- A loop is new and at its top, or was left alone before. -/
theorem schedule_live (inv : s.Inv) (rest : ∀ g < s.starts, ∀ sock,
      (s.stage g sock).live = true → s.dropped sock = true) {h : Nat} {other : S}
    (goes : (s.schedule.stage h other).live = true) :
    h = s.starts ∧ other ∈ s.m_socks ∧ s.schedule.stage h other = .top ∨
      h < s.starts ∧ s.dropped other = true ∧
        s.schedule.stage h other = s.stage h other := by
  simp only [State.schedule, Function.update_apply] at goes ⊢
  split at goes
  · rename_i same
    rw [if_pos same]
    dsimp only at goes ⊢
    split at goes
    · rename_i inside
      exact .inl ⟨same, inside, if_pos inside⟩
    · cases goes
  · rename_i different
    rw [if_neg different]
    have before := inv.before goes
    exact .inr ⟨before, rest h before other goes, rfl⟩

theorem schedule (inv : s.Inv) (idle : s.stops = 0) (rest : ∀ g < s.starts, ∀ sock,
      (s.stage g sock).live = true → s.dropped sock = true) : s.schedule.Inv := by
  have goes (h : Nat) (other : S) (live : (s.schedule.stage h other).live = true) :=
    inv.schedule_live rest live
  constructor
  · exact inv.calm
  · intro h other after
    change Function.update s.stage _ _ h other = _
    rw [Function.update_of_ne (Nat.ne_of_gt after)]
    exact inv.later h other (Nat.le_of_succ_le after)
  · intro h other started
    change Function.update s.stage s.starts _ h other ≠ _ at started
    rw [Function.update_apply] at started
    split at started
    · by_cases inside : other ∈ s.m_socks
      · exact inv.born other inside
      · exact absurd (if_neg inside) started
    · exact inv.known h other started
  · intro h i other one two
    rcases goes h other one with ⟨rfl, inside, -⟩ | ⟨-, out, first⟩
    · rcases goes i other two with ⟨rfl, -⟩ | ⟨-, out, -⟩
      · rfl
      · exact absurd inside (inv.apart other out).1
    · rcases goes i other two with ⟨rfl, inside, -⟩ | ⟨-, -, second⟩
      · exact absurd inside (inv.apart other out).1
      · rw [first] at one
        rw [second] at two
        exact inv.own h i other one two
  · intro h other listens
    rcases goes h other (Stage.live_of_listens listens) with ⟨-, -, top⟩ | ⟨-, out, -⟩
    · rw [top] at listens
      cases listens
    · exact .inr out
  · intro other
    refine (inv.opened other).trans (or_congr_right (and_congr_right fun out => ?_))
    constructor
    · intro held
      obtain ⟨h, before, live⟩ := held_iff.mp held
      refine held_iff.mpr ⟨h, Nat.lt_succ_of_lt before, ?_⟩
      change (Function.update s.stage s.starts _ h other).live = true
      rw [Function.update_of_ne (Nat.ne_of_lt before)]
      exact live
    · intro held
      obtain ⟨h, -, live⟩ := held_iff.mp held
      rcases goes h other live with ⟨-, inside, -⟩ | ⟨before, -, same⟩
      · exact absurd inside (inv.apart other out).1
      · exact held_of_live before (same ▸ live)
  · exact inv.born
  · exact inv.apart
  · intro _
    refine ⟨idle, fun h other live => ?_⟩
    exact (goes h other live).imp (fun new => new.2.1) fun old => old.2.1
  · intro h other false
    rcases goes h other (Stage.live_of_phantom false) with ⟨-, -, top⟩ | ⟨-, -, same⟩
    · rw [top] at false
      cases false
    · rw [same] at false
      exact inv.phantom h other false
  · exact inv.told
  · exact inv.once

theorem start (inv : s.Inv) (permits : s.Permits .start) : s.start.Inv := by
  unfold State.start
  split
  · rename_i stopped
    obtain ⟨idle, rest⟩ := permits stopped
    exact inv.schedule idle rest
  · exact inv

theorem close (inv : s.Inv) (permits : s.Permits .close) (stopping : s.stops ≠ 0) :
    s.close.Inv := by
  have stopped : s.m_isStop = true := by
    cases running : s.m_isStop with
    | true => rfl
    | false => exact absurd (inv.running running).1 stopping
  have stage (h : Nat) (other : S) : s.close.stage h other =
      if other ∈ s.m_socks then (s.stage h other).cancelled else s.stage h other := rfl
  have live (h : Nat) (other : S) :
      (s.close.stage h other).live = (s.stage h other).live := by
    rw [stage]
    split
    · exact Stage.live_cancelled _
    · rfl
  have held (other : S) : s.close.held other = s.held other :=
    congrArg (List.any (List.range s.starts)) (funext fun h => live h other)
  constructor
  · exact inv.calm
  · intro h other after
    rw [stage, inv.later h other after]
    exact ite_self _
  · intro h other started
    apply inv.known h other
    intro none
    rw [stage, none] at started
    exact started (ite_self _)
  · intro h i other one two
    rw [live] at one two
    exact inv.own h i other one two
  · intro h other listens
    right
    rw [stage] at listens
    split at listens
    · rename_i inside
      rw [Stage.listens_cancelled] at listens
      · cases listens
      · intro called
        exact permits h (inv.before (by rw [called]; rfl)) other inside called
    · rename_i outside
      rcases inv.listening h other listens with inside | out
      · exact absurd inside.1 outside
      · exact out
  · intro other
    have opened := inv.opened other
    have apart := inv.apart other
    rw [held]
    change (s.isOpen other && decide (other ∉ s.m_socks)) = true ↔
      other ∈ [] ∨ s.dropped other = true ∧ s.held other = true
    grind
  · exact fun other member => absurd member List.not_mem_nil
  · exact fun other out => ⟨List.not_mem_nil, (inv.apart other out).2⟩
  · intro started
    change s.m_isStop = false at started
    rw [stopped] at started
    cases started
  · intro h other false
    refine ⟨List.not_mem_nil, ?_⟩
    rw [stage] at false
    split at false
    · rename_i inside
      constructor
      · apply Bool.eq_false_iff.mpr
        exact fun out => (inv.apart other out).1 inside
      · exact fun member => (inv.told other member).1 inside
    · exact (inv.phantom h other false).2
  · exact fun other member => ⟨List.not_mem_nil, (inv.told other member).2⟩
  · exact inv.once

theorem accept (inv : s.Inv) (called : s.stage g sock = .called) (outcome : Outcome) :
    s.isOpen sock = true ∧ (s.accept g sock outcome).Inv := by
  have live : (s.stage g sock).live = true := by rw [called]; rfl
  have listens : (s.stage g sock).listens = true := by rw [called]; rfl
  constructor
  · apply (inv.opened sock).mpr
    exact (inv.listening g sock listens).imp And.left fun out => ⟨out, inv.holds live⟩
  · cases outcome with
    | connected => exact inv.move live rfl nofun nofun
    | failed => exact inv.move live rfl nofun nofun
    | pending expired =>
        have alone : s.registered sock = false := by
          rw [registered, List.any_eq_false]
          intro h _ waits
          split at waits
          · rename_i waiting
            have other : (s.stage h sock).live = true := by rw [waiting]; rfl
            rw [inv.own h g sock other live, called] at waiting
            cases waiting
          · cases waits
        unfold State.accept
        rw [alone]
        exact inv.move live rfl (fun _ => .inl listens) nofun

theorem check (inv : s.Inv) (top : s.stage g sock = .top) :
    (if s.m_isStop then (s.move g sock .done).release else s.move g sock .called).Inv := by
  have live : (s.stage g sock).live = true := by rw [top]; rfl
  cases stopped : s.m_isStop with
  | true => exact inv.finish live
  | false => exact inv.move live rfl (fun _ => .inr stopped) nofun

theorem complete (inv : s.Inv) {expired : Bool}
    (waits : s.stage g sock = .waiting true expired) (success : Bool) :
    (s.move g sock
      (if success then .resumed true expired else .waiting false expired)).Inv := by
  have live : (s.stage g sock).live = true := by rw [waits]; rfl
  cases success with
  | true => exact inv.move live rfl nofun nofun
  | false => exact inv.move live rfl (fun _ => .inl (by rw [waits]; rfl)) nofun

theorem answer (inv : s.Inv) {connected expired : Bool}
    (resumed : s.stage g sock = .resumed connected expired) :
    (s.move g sock (if expired then .top else .accepted connected)).Inv := by
  have live : (s.stage g sock).live = true := by rw [resumed]; rfl
  cases expired with
  | true => exact inv.move live rfl nofun nofun
  | false =>
      refine inv.move live rfl nofun fun real => ?_
      rw [resumed]
      cases connected with
      | true => cases real
      | false => rfl

theorem step {action : Action S} (inv : s.Inv) (permits : s.Permits action)
    (taken : s.step action = some next) : next.Inv := by
  cases action with
  | bind sock =>
      rw [State.step] at taken
      split at taken
      · cases taken
      · rename_i free
        cases taken
        exact inv.bind (Bool.eq_false_iff.mpr free)
  | refuse =>
      cases taken
      exact inv.refuse
  | start =>
      cases taken
      exact inv.start permits
  | stop =>
      cases taken
      exact {
        inv with
        listening := fun h other listens => (inv.listening h other listens).imp_left
          (And.imp_right fun _ _ => Nat.succ_ne_zero _)
        running := fun started => Bool.noConfusion started }
  | close =>
      rw [State.step] at taken
      split at taken
      · cases taken
      · rename_i stopping
        cases taken
        exact inv.close permits stopping
  | check g sock =>
      rw [State.step] at taken
      split at taken
      · rename_i top
        cases taken
        exact inv.check top
      · cases taken
  | accept g sock outcome =>
      rw [State.step] at taken
      split at taken
      · rename_i called
        obtain ⟨opened, accepts⟩ := inv.accept called outcome
        rw [if_pos opened] at taken
        cases taken
        exact accepts
      · cases taken
  | complete g sock success =>
      rw [State.step] at taken
      split at taken
      · rename_i waits
        cases taken
        exact inv.complete waits success
      · cases taken
  | expire g sock =>
      rw [State.step] at taken
      split at taken
      · rename_i waits
        cases taken
        exact inv.move (by rw [waits]; rfl) rfl nofun nofun
      · rename_i connected resumed
        cases taken
        refine inv.move (by rw [resumed]; rfl) rfl nofun fun real => ?_
        cases connected <;> cases real
      · cases taken
  | answer g sock =>
      rw [State.step] at taken
      split at taken
      · rename_i resumed
        cases taken
        exact inv.answer resumed
      · cases taken
  | hand g sock init =>
      rw [State.step] at taken
      split at taken
      · rename_i connected accepted
        cases taken
        exact inv.hand accepted init
      · cases taken

end Inv

theorem Initial.inv (initial : s.Initial) : s.Inv where
  calm := initial.crashed
  later h other _ := initial.stage h other
  known h other started := absurd (initial.stage h other) started
  own h i other one := by
    rw [initial.stage] at one
    cases one
  listening h other listens := by
    rw [initial.stage] at listens
    cases listens
  opened other := by
    rw [initial.isOpen, initial.m_socks, initial.dropped]
    simp
  born other member := by
    rw [initial.m_socks] at member
    cases member
  apart other out := by
    rw [initial.dropped] at out
    cases out
  running started := by
    rw [initial.m_isStop] at started
    cases started
  phantom h other false := by
    rw [initial.stage] at false
    cases false
  told other member := by
    rw [initial.handed] at member
    cases member
  once other := by
    rw [initial.handed]
    exact Nat.zero_le 1

section Witness

instance [Fintype S] (s : State S) (action : Action S) : Decidable (s.Permits action) := by
  cases action <;> unfold Permits <;> infer_instance

def unbound : State Bool where
  m_isStop := true
  m_socks := []
  isOpen _ := false
  bound _ := false
  dropped _ := false
  starts := 0
  stage _ _ := .none
  stops := 0
  handed := []
  crashed := false

/-- The server stops while a loop waits, and a second time after a `bind` that failed. -/
def stopped : List (Action Bool) :=
  [.bind false, .start, .check 0 false, .accept 0 false (.pending false), .stop, .close,
    .answer 0 false, .hand 0 false true, .check 0 false, .bind true, .start, .check 1 true,
    .accept 1 true (.pending false), .refuse, .stop, .close]

end Witness

end State

end Sylar.Accepting
