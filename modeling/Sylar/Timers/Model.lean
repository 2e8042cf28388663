import Mathlib.Data.Prod.Lex
import Mathlib.Logic.Function.Basic
import Sylar.Data.OrderedSet
import Sylar.Logic.Reach

namespace Sylar.Timers

open Data Logic

/-! `TimerManager` and the timers it has constructed, each known by its address.
Every operation is one section under `m_mutex`. `refresh` and `reset` look at
`m_cb` before they lock, but search `m_timers` again under the lock. -/

structure Timer (C : Type) where
  recurring : Bool
  ms : UInt64
  next : UInt64
  cb : Option C

structure TimerManager (T C : Type) where
  timer : T → Timer C
  constructed : T → Bool
  timers : List T
  tickled : Bool
  previouseTime : UInt64

variable {T C : Type}

/-- What `Comparator` compares, of two pointers that are not null. -/
def key (timer : T → Timer C) (it : T) : ℕ ×ₗ T :=
  toLex ((timer it).next.toNat, it)

theorem key_injective (timer : T → Timer C) : Function.Injective (key timer) := by
  intro first second same
  exact congrArg (fun pair => (ofLex pair).2) same

variable [LinearOrder T]

namespace TimerManager

def assign (m : TimerManager T C) (it : T) (value : Timer C) :
    TimerManager T C :=
  { m with timer := Function.update m.timer it value }

def erase (m : TimerManager T C) (it : T) : TimerManager T C :=
  { m with timers := m.timers.erase it }

def insert (m : TimerManager T C) (it : T) : TimerManager T C :=
  { m with timers := OrderedSet.insert (key m.timer) it m.timers }

def find (m : TimerManager T C) (it : T) : Option T :=
  OrderedSet.find (key m.timer) it m.timers

/-- `at_front` of `addTimer(val, lock)` once `val` is inserted. -/
def atFront (m : TimerManager T C) (val : T) : Bool :=
  m.timers.head? == some val && !m.tickled

/-- `addTimer(val, lock)`; the caller is told whether `onTimerInsertedAtFront`
is called. -/
def addTimerLocked (m : TimerManager T C) (val : T) :
    Bool × TimerManager T C :=
  ((m.insert val).atFront val,
    { m.insert val with tickled := m.tickled || (m.insert val).atFront val })

def addTimer (m : TimerManager T C) (it : T) (ms : UInt64) (cb : C)
    (recurring : Bool) (now : UInt64) : Bool × TimerManager T C :=
  ({ m.assign it ⟨recurring, ms, now + ms, some cb⟩ with
    constructed := Function.update m.constructed it true }).addTimerLocked it

/-- `none` is `erase(end())`. -/
def cancel (m : TimerManager T C) (it : T) :
    Option (Bool × TimerManager T C) :=
  if (m.timer it).cb.isSome then
    ((m.assign it { m.timer it with cb := none }).find it).map fun found =>
      (true, (m.assign it { m.timer it with cb := none }).erase found)
  else some (false, m)

/-- What `refresh` does once the timer is found. -/
def rearm (m : TimerManager T C) (it : T) (now : UInt64) : TimerManager T C :=
  ((m.erase it).assign it
    { m.timer it with next := now + (m.timer it).ms }).insert it

def refresh (m : TimerManager T C) (it : T) (now : UInt64) :
    Bool × TimerManager T C :=
  if (m.timer it).cb.isNone then (false, m)
  else
    match m.find it with
    | none => (false, m)
    | some found => (false, m.rearm found now)

/-- `start` of `reset`. -/
def resetStart (m : TimerManager T C) (it : T) (fromNow : Bool)
    (now : UInt64) : UInt64 :=
  if fromNow then now else (m.timer it).next - (m.timer it).ms

/-- The answer of `reset`, whether it calls `onTimerInsertedAtFront`, and what it
leaves. -/
def reset (m : TimerManager T C) (it : T) (ms : UInt64) (fromNow : Bool)
    (now : UInt64) : Bool × Bool × TimerManager T C :=
  if ms = (m.timer it).ms ∧ fromNow = false then (true, false, m)
  else if (m.timer it).cb.isNone then (false, false, m)
  else
    match m.find it with
    | none => (false, false, m)
    | some found =>
        (true, ((m.erase found).assign it
          { m.timer it with
            ms := ms
            next := m.resetStart it fromNow now + ms }).addTimerLocked it)

/-- The answer of `detectClockRollover`; it also stores the time. -/
def rollover (m : TimerManager T C) (now : UInt64) : Bool :=
  now < m.previouseTime && now < m.previouseTime - 60 * 60 * 1000

/-- The timers from the first to `it`, where `now_timer` was allocated at the
given address. -/
def expired (m : TimerManager T C) (now : UInt64) (address : T) : List T :=
  if m.rollover now then m.timers
  else
    OrderedSet.below (key m.timer) (toLex (now.toNat, address)) m.timers ++
      (OrderedSet.lowerBound (key m.timer) (toLex (now.toNat, address))
        m.timers).takeWhile fun it => (m.timer it).next == now

/-- One round of the last loop of `listExpiredCb`. -/
def fire (now : UInt64) (m : TimerManager T C) (it : T) : TimerManager T C :=
  if (m.timer it).recurring then
    (m.assign it { m.timer it with next := now + (m.timer it).ms }).insert it
  else m.assign it { m.timer it with cb := none }

/-- The timers whose callbacks `listExpiredCb` hands out. -/
def handed (m : TimerManager T C) (now : UInt64) (address : T) : List T :=
  match m.timers with
  | [] => []
  | first :: _ =>
      if !m.rollover now && now < (m.timer first).next then []
      else m.expired now address

def listExpiredCb (m : TimerManager T C) (now : UInt64) (address : T) :
    List (Option C) × TimerManager T C :=
  match m.timers with
  | [] => ([], m)
  | first :: _ =>
      if !m.rollover now && now < (m.timer first).next then
        ([], { m with previouseTime := now })
      else
        ((m.expired now address).map fun it => (m.timer it).cb,
          (m.expired now address).foldl (fire now)
            { m with
              previouseTime := now
              timers := m.timers.drop (m.expired now address).length })

def getNextTimer (m : TimerManager T C) (now : UInt64) :
    UInt64 × TimerManager T C :=
  (match m.timers with
    | [] => 0xffffffffffffffff
    | next :: _ =>
        if (m.timer next).next ≤ now then 0 else (m.timer next).next - now,
    { m with tickled := false })

end TimerManager

end Sylar.Timers
