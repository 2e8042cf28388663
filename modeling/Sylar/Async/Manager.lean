import Mathlib.Data.List.Perm.Subperm
import Sylar.Logic.Reach

namespace Sylar.AsyncSocketStreamManager

open Logic

/-! Concurrent calls of `get`, which hold the lock as readers, with the operations
that hold it as writers between them. A turn of a call is one round of its loop:
`fetch_add` is all that it shares. -/

variable {S : Type}

structure Manager (S : Type) where
  datas : List S
  size : UInt32
  idx : UInt32

/-- A call of `get` before a round of its loop; `taken` are the values of the
counter it has had. -/
structure Get where
  i : UInt32
  taken : List UInt32
  deriving DecidableEq, Repr

/-- What a call returned, and the manager and the streams it returned from. -/
structure Returned (S : Type) where
  manager : Manager S
  connected : S → Bool
  value : Option S

structure State (S : Type) where
  manager : Manager S
  connected : S → Bool
  calls : List Get
  returned : List (Returned S)

/-- `change` stands for all that happens to the streams themselves. -/
inductive Label (S : Type)
  | add (stream : S)
  | clear
  | setConnection (streams : List S)
  | change (connected : S → Bool)
  | enter
  | turn (call : Nat)

namespace Manager

def add (manager : Manager S) (stream : S) : Manager S :=
  { manager with
    datas := manager.datas ++ [stream]
    size := manager.size + 1 }

def clear (manager : Manager S) : Manager S :=
  { manager with datas := [], size := 0 }

def setConnection (manager : Manager S) (streams : List S) : Manager S :=
  { manager with datas := streams, size := UInt32.ofNat streams.length }

/-- `m_size` counts the streams, as a `uint32_t`. -/
def Sized (manager : Manager S) : Prop :=
  manager.size = UInt32.ofNat manager.datas.length

end Manager

namespace State

/-- The call that is number `call` leaves with a value. -/
def leave (state : State S) (call : Nat) (value : Option S) : State S :=
  { state with
    calls := state.calls.eraseIdx call
    returned := state.returned ++ [⟨state.manager, state.connected, value⟩] }

/-- One round of the loop; `none` where it would read outside `m_datas`. -/
def turn (state : State S) (call : Nat) (get : Get) : Option (State S) :=
  let manager := state.manager
  if get.i < manager.size then
    let idx := manager.idx
    let fetched := { state with manager := { manager with idx := idx + 1 } }
    match manager.datas[(idx % manager.size).toNat]? with
    | none => none
    | some stream =>
        if state.connected stream then
          some (fetched.leave call (some stream))
        else
          some { fetched with
            calls := state.calls.set call ⟨get.i + 1, get.taken ++ [idx]⟩ }
  else some (state.leave call none)

/-- The lock for a writer is free when no call of `get` is running. -/
def write (state : State S) (next : State S) : Option (State S) :=
  if state.calls.isEmpty then some next else none

def step (state : State S) : Label S → Option (State S)
  | .add stream =>
      state.write { state with manager := state.manager.add stream }
  | .clear => state.write { state with manager := state.manager.clear }
  | .setConnection streams =>
      state.write { state with manager := state.manager.setConnection streams }
  | .change connected => state.write { state with connected }
  | .enter => some { state with calls := state.calls ++ [⟨0, []⟩] }
  | .turn call => state.calls[call]?.bind (state.turn call)

/-- Any manager, with any value of its counter. -/
def Init (state : State S) : Prop :=
  state.manager.Sized ∧ state.calls = [] ∧ state.returned = []

/-- The counter stands for a stream that the call has not looked at yet; and
`m_size` is the number of streams. -/
def Fresh (state : State S) : Label S → Prop
  | .enter => state.manager.datas.length < UInt32.size
  | .turn call => ∀ get ∈ state.calls[call]?, get.i < state.manager.size →
      ∀ idx ∈ get.taken,
        idx % state.manager.size ≠ state.manager.idx % state.manager.size
  | _ => True

end State

/-- A stream that is connected, if there is one. -/
def Returned.Right (returned : Returned S) : Prop :=
  (∃ stream ∈ returned.manager.datas,
      returned.connected stream = true ∧ returned.value = some stream) ∨
    (∀ stream ∈ returned.manager.datas, returned.connected stream = false) ∧
      returned.value = none

namespace Manager

variable {manager : Manager S}

theorem Sized.add (sized : manager.Sized) (stream : S) :
    (manager.add stream).Sized := by
  unfold Sized Manager.add at *
  rw [sized, List.length_append, UInt32.ofNat_add]
  rfl

theorem Sized.size_toNat (sized : manager.Sized)
    (bound : manager.datas.length < UInt32.size) :
    manager.size.toNat = manager.datas.length := by
  rw [sized]
  exact UInt32.toNat_ofNat_of_lt' bound

/-- The stream that a value of the counter stands for. -/
def place (manager : Manager S) (idx : UInt32) : Nat :=
  (idx % manager.size).toNat

theorem place_lt (sized : manager.Sized)
    (bound : manager.datas.length < UInt32.size) {i : UInt32}
    (more : i < manager.size) (idx : UInt32) :
    manager.place idx < manager.datas.length := by
  have positive : 0 < manager.size.toNat :=
    Nat.lt_of_le_of_lt (Nat.zero_le _) (UInt32.lt_iff_toNat_lt.mp more)
  rw [place, UInt32.toNat_mod, ← sized.size_toNat bound]
  exact Nat.mod_lt _ positive

end Manager

/-- Different places as many as there are streams are all the places. -/
theorem all_places {places : List Nat} {count : Nat} (apart : places.Nodup)
    (length : places.length = count) (inside : ∀ place ∈ places, place < count)
    {place : Nat} (below : place < count) : place ∈ places := by
  have sub : places.Subperm (List.range count) :=
    List.subperm_of_subset apart fun place member =>
      List.mem_range.mpr (inside place member)
  have same : places.Perm (List.range count) :=
    sub.perm_of_length_le (by rw [List.length_range]; exact Nat.le_of_eq length.symm)
  exact same.mem_iff.mpr (List.mem_range.mpr below)

/-- What a call of `get` knows about the streams: those it has looked at are
different ones, and none of them is connected. -/
structure Looked (manager : Manager S) (connected : S → Bool) (get : Get) :
    Prop where
  bound : manager.datas.length < UInt32.size
  count : get.taken.length = get.i.toNat
  limit : get.i.toNat ≤ manager.size.toNat
  apart : (get.taken.map manager.place).Nodup
  dead : ∀ idx ∈ get.taken, ∀ stream,
    manager.datas[manager.place idx]? = some stream → connected stream = false

/-- A call that has looked at as many streams as there are has looked at all. -/
theorem Looked.all {manager : Manager S} {connected : S → Bool} {get : Get}
    (looked : Looked manager connected get) (sized : manager.Sized)
    (done : ¬ get.i < manager.size) :
    ∀ stream ∈ manager.datas, connected stream = false := by
  intro stream member
  obtain ⟨place, below, rfl⟩ := List.mem_iff_getElem.mp member
  have size := sized.size_toNat looked.bound
  have full : get.i.toNat = manager.datas.length := by
    have := looked.limit
    have := UInt32.lt_iff_toNat_lt.not.mp done
    omega
  have visited : place ∈ get.taken.map manager.place := by
    refine all_places looked.apart ?_ ?_ below
    · rw [List.length_map, looked.count, full]
    · intro other taken
      obtain ⟨idx, -, rfl⟩ := List.mem_map.mp taken
      rw [Manager.place, UInt32.toNat_mod, ← size]
      exact Nat.mod_lt _ (by omega)
  obtain ⟨idx, taken, rfl⟩ := List.mem_map.mp visited
  exact looked.dead idx taken _ (List.getElem?_eq_getElem below)

structure Invariant (state : State S) : Prop where
  sized : state.manager.Sized
  looked : ∀ get ∈ state.calls, Looked state.manager state.connected get
  right : ∀ returned ∈ state.returned, returned.Right

namespace Invariant

variable {state next : State S}

theorem initially (initial : state.Init) : Invariant state := by
  obtain ⟨sized, calls, returned⟩ := initial
  exact ⟨sized, by simp [calls], by simp [returned]⟩

/-- A writer finds no call of `get` that could know anything. -/
theorem write {changed : State S} (invariant : Invariant state)
    (written : state.write changed = some next)
    (sized : changed.manager.Sized) (calls : changed.calls = state.calls)
    (returned : changed.returned = state.returned) : Invariant next := by
  unfold State.write at written
  split at written
  · rename_i free
    cases written
    refine ⟨sized, ?_, by rw [returned]; exact invariant.right⟩
    rw [calls, List.isEmpty_iff.mp free]
    simp
  · cases written

theorem enter (invariant : Invariant state)
    (bound : state.manager.datas.length < UInt32.size) :
    Invariant { state with calls := state.calls ++ [⟨0, []⟩] } := by
  refine ⟨invariant.sized, ?_, invariant.right⟩
  intro get member
  rcases List.mem_append.mp member with earlier | here
  · exact invariant.looked get earlier
  · obtain rfl := List.mem_singleton.mp here
    exact ⟨bound, rfl, Nat.zero_le _, List.nodup_nil, by simp⟩

theorem leave (invariant : Invariant state) (call : Nat) {value : Option S}
    (idx : UInt32)
    (right : Returned.Right
      ⟨{ state.manager with idx := idx }, state.connected, value⟩) :
    Invariant (State.leave
      { state with manager := { state.manager with idx := idx } } call
      value) := by
  refine ⟨invariant.sized, ?_, ?_⟩
  · intro get member
    have looked := invariant.looked get (List.mem_of_mem_eraseIdx member)
    exact ⟨looked.bound, looked.count, looked.limit, looked.apart, looked.dead⟩
  · intro returned member
    rcases List.mem_append.mp member with earlier | here
    · exact invariant.right returned earlier
    · obtain rfl := List.mem_singleton.mp here
      exact right

/-- A round that finds its stream not connected. -/
theorem next_round {get : Get} {stream : S}
    (looked : Looked state.manager state.connected get)
    (more : get.i < state.manager.size)
    (fresh : ∀ idx ∈ get.taken,
      idx % state.manager.size ≠ state.manager.idx % state.manager.size)
    (found : state.manager.datas[state.manager.place state.manager.idx]? =
      some stream)
    (dead : state.connected stream = false) :
    Looked { state.manager with idx := state.manager.idx + 1 } state.connected
      ⟨get.i + 1, get.taken ++ [state.manager.idx]⟩ := by
  have below := UInt32.lt_iff_toNat_lt.mp more
  have succ : (get.i + 1).toNat = get.i.toNat + 1 := by
    have := state.manager.size.toNat_lt
    rw [UInt32.toNat_add]
    exact Nat.mod_eq_of_lt (by simp; omega)
  refine ⟨looked.bound, ?_, ?_, ?_, ?_⟩
  · rw [List.length_append, looked.count, succ]
    rfl
  · rw [succ]
    exact below
  · rw [List.map_append]
    refine List.nodup_append.mpr ⟨looked.apart, by simp, ?_⟩
    intro place earlier other here same
    obtain ⟨idx, taken, rfl⟩ := List.mem_map.mp earlier
    rw [List.mem_singleton.mp here] at same
    exact fresh idx taken (UInt32.toNat_inj.mp same)
  · intro idx member other place
    rcases List.mem_append.mp member with earlier | here
    · exact looked.dead idx earlier other place
    · rw [List.mem_singleton.mp here] at place
      cases found.symm.trans place
      exact dead

theorem turn (invariant : Invariant state) {call : Nat} {get : Get}
    (running : state.calls[call]? = some get)
    (fresh : get.i < state.manager.size → ∀ idx ∈ get.taken,
      idx % state.manager.size ≠ state.manager.idx % state.manager.size)
    (taken : state.turn call get = some next) : Invariant next := by
  have looked := invariant.looked get (List.mem_of_getElem? running)
  unfold State.turn at taken
  simp only at taken
  split at taken
  · rename_i more
    split at taken
    · cases taken
    · rename_i stream found
      split at taken
      · rename_i live
        cases taken
        exact invariant.leave call _
          (.inl ⟨stream, List.mem_of_getElem? found, live, rfl⟩)
      · rename_i dead
        cases taken
        have dead : state.connected stream = false := by simpa using dead
        refine ⟨invariant.sized, ?_, invariant.right⟩
        intro other member
        rcases List.mem_or_eq_of_mem_set member with earlier | rfl
        · have looked := invariant.looked other earlier
          exact ⟨looked.bound, looked.count, looked.limit, looked.apart,
            looked.dead⟩
        · exact next_round looked more (fresh more) found dead
  · rename_i done
    cases taken
    exact invariant.leave call state.manager.idx
      (.inr ⟨looked.all invariant.sized done, rfl⟩)

theorem step {label : Label S} (invariant : Invariant state)
    (taken : StepWhen State.step State.Fresh state label next) :
    Invariant next := by
  obtain ⟨fresh, taken⟩ := taken
  cases label with
  | add stream =>
      exact invariant.write taken (invariant.sized.add stream) rfl rfl
  | clear => exact invariant.write taken rfl rfl rfl
  | setConnection streams => exact invariant.write taken rfl rfl rfl
  | change connected => exact invariant.write taken invariant.sized rfl rfl
  | enter =>
      cases taken
      exact invariant.enter fresh
  | turn call =>
      obtain ⟨get, running, taken⟩ := Option.bind_eq_some_iff.mp taken
      exact invariant.turn running (fresh get running) taken

/-- A call that is running has a next round, inside `m_datas`. -/
theorem defined (invariant : Invariant state) {call : Nat} {get : Get}
    (running : state.calls[call]? = some get) :
    (state.step (.turn call)).isSome := by
  have looked := invariant.looked get (List.mem_of_getElem? running)
  simp only [State.step, running, Option.bind_some, State.turn]
  split
  · rename_i more
    have below := Manager.place_lt invariant.sized looked.bound more
      state.manager.idx
    rw [Manager.place] at below
    rw [List.getElem?_eq_getElem below]
    simp only
    split <;> rfl
  · rfl

end Invariant

instance (state : State S) : (label : Label S) → Decidable (state.Fresh label)
  | .enter => inferInstanceAs (Decidable (_ < _))
  | .turn call =>
      have (get : Get) : Decidable (∀ idx ∈ get.taken,
          idx % state.manager.size ≠ state.manager.idx % state.manager.size) :=
        List.decidableBAll _ _
      inferInstanceAs (Decidable (∀ get ∈ state.calls[call]?, _))
  | .add _ | .clear | .setConnection _ | .change _ =>
      inferInstanceAs (Decidable True)

/-- What has been returned is right, and every call that is running has a next
round, after at most `m_size` others. -/
structure Found (state : State S) : Prop where
  right : ∀ returned ∈ state.returned, returned.Right
  limit : ∀ get ∈ state.calls, get.i.toNat ≤ state.manager.size.toNat
  defined : ∀ call < state.calls.length, (state.step (.turn call)).isSome

theorem live_found {state : State S}
    (reached : Reach State.Init (StepWhen State.step State.Fresh) state) :
    Found state := by
  have invariant : Invariant state :=
    reached.invariant (fun _ initial => .initially initial)
      fun _ _ _ invariant taken => invariant.step taken
  refine ⟨invariant.right, ?_, ?_⟩
  · exact fun get member => (invariant.looked get member).limit
  · exact fun call below =>
      invariant.defined (List.getElem?_eq_getElem below)

/-- A manager of these streams of which one is connected. -/
def oneConnected [DecidableEq S] (datas : List S) (live : S) (idx : UInt32) :
    State S where
  manager := ⟨datas, UInt32.ofNat datas.length, idx⟩
  connected := fun stream => stream = live
  calls := []
  returned := []

theorem oneConnected_initial [DecidableEq S] (datas : List S) (live : S)
    (idx : UInt32) : (oneConnected datas live idx).Init :=
  ⟨rfl, rfl, rfl⟩

/-- A call that takes the last two values of the counter. -/
theorem live_found_last :
    ∃ state : State Nat,
      state.returned.map Returned.value = [some 1] ∧ Found state := by
  obtain ⟨state, ran, value⟩ : ∃ state,
      exec (guarded State.step State.Fresh) (oneConnected [0, 1] 1 4294967294)
        [.enter, .turn 0, .turn 0] = some state ∧
      state.returned.map Returned.value = [some 1] := ⟨_, rfl, rfl⟩
  exact ⟨state, value,
    live_found (reach_guarded (.start _ (oneConnected_initial _ _ _)) ran)⟩

theorem not_found_of_null {state : State S} {returned : Returned S} {live : S}
    (member : returned ∈ state.returned) (null : returned.value = none)
    (present : live ∈ returned.manager.datas)
    (connected : returned.connected live = true) : ¬ Found state := by
  intro found
  rcases found.right returned member with ⟨stream, -, -, some⟩ | ⟨dead, -⟩
  · rw [null] at some
    cases some
  · rw [dead live present] at connected
    cases connected

/-- With another call between its rounds a call looks twice at the first of two
streams; and one alone does at the first of three when the counter passes its
end. -/
theorem live_found_not :
    (∃ state : State Nat, Reach State.Init (StepOf State.step) state ∧
      state.returned.map Returned.value = [some 1, none] ∧ ¬ Found state) ∧
    ∃ state : State Nat, Reach State.Init (StepOf State.step) state ∧
      state.returned.map Returned.value = [none] ∧ ¬ Found state := by
  constructor
  · obtain ⟨state, ran, values, null⟩ : ∃ state,
        exec State.step (oneConnected [0, 1] 1 0)
          [.enter, .turn 0, .enter, .turn 1, .turn 0, .turn 0] = some state ∧
        state.returned.map Returned.value = [some 1, none] ∧
        ⟨⟨[0, 1], 2, 3⟩, fun stream => decide (stream = 1), none⟩ ∈
          state.returned :=
      ⟨_, rfl, rfl, .tail _ (.head _)⟩
    exact ⟨state, reach_exec (.start _ (oneConnected_initial _ _ _)) ran, values,
      not_found_of_null null rfl (by decide : 1 ∈ [0, 1]) (by decide)⟩
  · obtain ⟨state, ran, values, null⟩ : ∃ state,
        exec State.step (oneConnected [0, 1, 2] 2 4294967295)
          [.enter, .turn 0, .turn 0, .turn 0, .turn 0] = some state ∧
        state.returned.map Returned.value = [none] ∧
        ⟨⟨[0, 1, 2], 3, 2⟩, fun stream => decide (stream = 2), none⟩ ∈
          state.returned :=
      ⟨_, rfl, rfl, .head _⟩
    exact ⟨state, reach_exec (.start _ (oneConnected_initial _ _ _)) ran, values,
      not_found_of_null null rfl (by decide : 2 ∈ [0, 1, 2]) (by decide)⟩

end Sylar.AsyncSocketStreamManager
