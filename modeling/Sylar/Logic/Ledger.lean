import Mathlib.Data.List.Perm.Basic
import Mathlib.Data.List.Nodup
import Mathlib.Data.List.Range

namespace Sylar.Logic

/-! A queue from which any entry can be taken, with the place each entry had
among all that were pushed. A ledger that lost an entry, or held one twice,
cannot be built. -/

structure Entry (α : Type) where
  place : Nat
  value : α

structure Ledger (α ω : Type) where
  pushed : List α
  waiting : List (Entry α)
  /-- what was taken, and by whom, the first first -/
  taken : List (Entry α × ω)
  once : (waiting.map Entry.place ++
    taken.map fun record => record.1.place).Perm (List.range pushed.length)
  waitingPushed : ∀ entry ∈ waiting, pushed[entry.place]? = some entry.value
  takenPushed : ∀ record ∈ taken,
    pushed[record.1.place]? = some record.1.value

namespace Ledger

variable {α ω : Type}

def empty : Ledger α ω where
  pushed := []
  waiting := []
  taken := []
  once := List.Perm.refl []
  waitingPushed := by simp
  takenPushed := by simp

/-- What is queued. -/
def queue (ledger : Ledger α ω) : List α :=
  ledger.waiting.map Entry.value

def push (ledger : Ledger α ω) (value : α) : Ledger α ω where
  pushed := ledger.pushed ++ [value]
  waiting := ledger.waiting ++ [⟨ledger.pushed.length, value⟩]
  taken := ledger.taken
  once := by
    rw [List.map_append, List.append_assoc, List.length_append,
      List.length_singleton, List.range_succ]
    have swapped : (ledger.waiting.map Entry.place ++
        ([ledger.pushed.length] ++
          ledger.taken.map fun record => record.1.place)).Perm
        (ledger.waiting.map Entry.place ++
          ((ledger.taken.map fun record => record.1.place) ++
            [ledger.pushed.length])) :=
      List.perm_append_comm.append_left _
    refine swapped.trans ?_
    rw [← List.append_assoc]
    exact ledger.once.append_right _
  waitingPushed := by
    intro entry member
    rcases List.mem_append.mp member with before | added
    · have found := ledger.waitingPushed entry before
      rw [List.getElem?_append_left (List.getElem?_eq_some_iff.mp found).1]
      exact found
    · obtain rfl := List.mem_singleton.mp added
      simp
  takenPushed := by
    intro record member
    have found := ledger.takenPushed record member
    rw [List.getElem?_append_left (List.getElem?_eq_some_iff.mp found).1]
    exact found

def take (ledger : Ledger α ω) (position : Fin ledger.waiting.length)
    (taker : ω) : Ledger α ω where
  pushed := ledger.pushed
  waiting := ledger.waiting.eraseIdx position
  taken := ledger.taken ++ [(ledger.waiting.get position, taker)]
  once := by
    have moved : (ledger.waiting.get position ::
        ledger.waiting.eraseIdx position).Perm ledger.waiting :=
      List.getElem_cons_eraseIdx_perm position.isLt
    rw [List.map_append, ← List.append_assoc]
    refine List.Perm.trans ?_ ledger.once
    refine List.perm_append_comm.trans ?_
    exact (moved.map Entry.place).append_right _
  waitingPushed := by
    intro entry member
    exact ledger.waitingPushed entry (List.mem_of_mem_eraseIdx member)
  takenPushed := by
    intro record member
    rcases List.mem_append.mp member with before | added
    · exact ledger.takenPushed record before
    · obtain rfl := List.mem_singleton.mp added
      exact ledger.waitingPushed _ (List.get_mem ledger.waiting position)

@[simp] theorem queue_push (ledger : Ledger α ω) (value : α) :
    (ledger.push value).queue = ledger.queue ++ [value] := by
  simp [queue, push]

@[simp] theorem queue_take (ledger : Ledger α ω)
    (position : Fin ledger.waiting.length) (taker : ω) :
    (ledger.take position taker).queue = ledger.queue.eraseIdx position := by
  simp [queue, take, List.eraseIdx_map]

@[simp] theorem length_queue (ledger : Ledger α ω) :
    ledger.queue.length = ledger.waiting.length := by
  simp [queue]

/-- An entry is in the queue or was taken, and in one of these places only
once. -/
theorem count_once (ledger : Ledger α ω) {place : Nat}
    (inside : place < ledger.pushed.length) :
    (ledger.waiting.map Entry.place).count place +
      (ledger.taken.map fun record => record.1.place).count place = 1 := by
  rw [← List.count_append, ledger.once.count_eq]
  exact List.count_eq_one_of_mem List.nodup_range (List.mem_range.mpr inside)

/-- A set of values pushed one after another. -/
def pushAll (ledger : Ledger α ω) (values : List α) : Ledger α ω :=
  values.foldl push ledger

@[simp] theorem queue_pushAll (ledger : Ledger α ω) (values : List α) :
    (ledger.pushAll values).queue = ledger.queue ++ values := by
  induction values generalizing ledger with
  | nil => simp [pushAll]
  | cons value values ih =>
      have first := ih (ledger.push value)
      rw [queue_push, List.append_assoc] at first
      exact first

@[simp] theorem taken_pushAll (ledger : Ledger α ω) (values : List α) :
    (ledger.pushAll values).taken = ledger.taken := by
  induction values generalizing ledger with
  | nil => rfl
  | cons value values ih => exact ih (ledger.push value)

end Ledger

end Sylar.Logic
