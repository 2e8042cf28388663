import Mathlib.Logic.Function.Basic
import Sylar.Logic.Ledger

namespace Sylar.Logic

/-! Registrations under keys, one at a time under each: the ledger tells the
registrations apart, and each of them ends once. -/

variable {κ α ω : Type} [DecidableEq κ]

namespace Ledger

/-- The registration under a key ends. -/
def close (ledger : Ledger (κ × α) ω) (key : κ) (how : ω) :
    Ledger (κ × α) ω :=
  match ledger.waiting.findFinIdx? fun entry => entry.value.1 = key with
  | none => ledger
  | some position => ledger.take position how

def closeAll (ledger : Ledger (κ × α) ω) (keys : List κ) (how : ω) :
    Ledger (κ × α) ω :=
  keys.foldl (fun ledger key => ledger.close key how) ledger

/-- What is registered under a key. -/
def under (ledger : Ledger (κ × α) ω) (key : κ) : List (κ × α) :=
  ledger.queue.filter fun record => record.1 = key

end Ledger

/-- The ledger has under each key what is registered under it. -/
def Tracks (ledger : Ledger (κ × α) ω) (holders : κ → Option α) : Prop :=
  ∀ key, (ledger.under key).Perm ((holders key).map (key, ·)).toList

namespace Tracks

variable {ledger : Ledger (κ × α) ω} {holders : κ → Option α}

theorem empty : Tracks (Ledger.empty : Ledger (κ × α) ω) fun _ => none :=
  fun _ => List.Perm.refl []

theorem push (tracks : Tracks ledger holders) {key : κ} (value : α)
    (free : holders key = none) :
    Tracks (ledger.push (key, value)) (Function.update holders key value) := by
  intro other
  have before := tracks other
  unfold Ledger.under at before ⊢
  rw [Ledger.queue_push, List.filter_append]
  rcases eq_or_ne other key with rfl | different
  · rw [free] at before
    rw [Function.update_self, List.perm_nil.mp before]
    simp
  · rw [Function.update_of_ne different]
    simpa [Ne.symm different] using before

/-- An entry that is taken is gone from under its key. -/
theorem under_take (ledger : Ledger (κ × α) ω)
    (position : Fin ledger.waiting.length) (how : ω) (key : κ) :
    (ledger.under key).Perm
      ((if (ledger.waiting.get position).value.1 = key then
        [(ledger.waiting.get position).value] else []) ++
        (ledger.take position how).under key) := by
  have moved : ((ledger.waiting.get position).value ::
      (ledger.take position how).queue).Perm ledger.queue :=
    (List.getElem_cons_eraseIdx_perm position.isLt).map Entry.value
  have kept := (moved.filter fun record => record.1 = key).symm
  rw [List.filter_cons] at kept
  unfold Ledger.under
  split
  · rename_i here
    rw [if_pos (decide_eq_true here)] at kept
    exact kept
  · rename_i elsewhere
    rw [if_neg (by simpa using elsewhere)] at kept
    exact kept

theorem close (tracks : Tracks ledger holders) {key : κ} {value : α}
    (held : holders key = some value) (how : ω) :
    Tracks (ledger.close key how) (Function.update holders key none) ∧
      ∃ place, (ledger.close key how).taken =
        ledger.taken ++ [(⟨place, (key, value)⟩, how)] := by
  have present : (key, value) ∈ ledger.under key := by
    rw [(tracks key).mem_iff, held]
    exact List.mem_singleton_self _
  obtain ⟨inside, -⟩ := List.mem_filter.mp present
  obtain ⟨entry, waiting, carried⟩ := List.mem_map.mp inside
  unfold Ledger.close
  cases found : ledger.waiting.findFinIdx? fun entry => entry.value.1 = key with
  | none =>
      rw [List.findFinIdx?_eq_none_iff] at found
      exact absurd (by rw [carried]; exact decide_eq_true rfl) (found entry waiting)
  | some position =>
      have here : (ledger.waiting.get position).value.1 = key := by
        simpa using (List.findFinIdx?_eq_some_iff.mp found).1
      have only := (under_take ledger position how key).symm.trans (tracks key)
      rw [if_pos here, held] at only
      obtain ⟨same, rest⟩ := List.cons_eq_cons.mp (List.perm_singleton.mp only)
      constructor
      · intro other
        rcases eq_or_ne other key with rfl | different
        · rw [Function.update_self]
          exact List.Perm.of_eq rest
        · have before := (under_take ledger position how other).symm.trans
            (tracks other)
          rw [here, if_neg (Ne.symm different)] at before
          rw [Function.update_of_ne different]
          exact before
      · refine ⟨(ledger.waiting.get position).place, ?_⟩
        change ledger.taken ++ [(ledger.waiting.get position, how)] = _
        rw [show (key, value) = _ from same.symm]

theorem closeAll (tracks : Tracks ledger holders) {keys : List κ}
    (distinct : keys.Nodup) (held : ∀ key ∈ keys, (holders key).isSome) (how : ω) :
    Tracks (ledger.closeAll keys how)
        (fun key => if key ∈ keys then none else holders key) ∧
      ∃ ended, (ledger.closeAll keys how).taken = ledger.taken ++ ended ∧
        ended.map (fun record => record.1.value) =
          keys.flatMap (fun key => ((holders key).map (key, ·)).toList) ∧
        ∀ record ∈ ended, record.2 = how := by
  induction keys generalizing ledger holders with
  | nil =>
      refine ⟨?_, [], ?_⟩
      · simpa [Ledger.closeAll] using tracks
      · simp [Ledger.closeAll]
  | cons key keys ih =>
      obtain ⟨fresh, distinct⟩ := List.nodup_cons.mp distinct
      obtain ⟨value, present⟩ :=
        Option.isSome_iff_exists.mp (held key List.mem_cons_self)
      obtain ⟨closed, place, taken⟩ := tracks.close present how
      have others : ∀ other ∈ keys,
          Function.update holders key none other = holders other := by
        intro other inside
        refine Function.update_of_ne ?_ _ _
        rintro rfl
        exact fresh inside
      obtain ⟨rest, ended, log, values, same⟩ := ih closed distinct (by
        intro other inside
        rw [others other inside]
        exact held other (List.mem_cons_of_mem key inside))
      refine ⟨?_, (⟨place, (key, value)⟩, how) :: ended, ?_, ?_, ?_⟩
      · refine cast (congrArg (Tracks _) (funext fun other => ?_)) rest
        rcases eq_or_ne other key with rfl | different
        · simp
        · simp [different]
      · change ((ledger.close key how).closeAll keys how).taken = _
        rw [log, taken, List.append_assoc]
        rfl
      · rw [List.map_cons, values, List.flatMap_cons, present]
        refine congrArg _ (List.flatMap_congr fun other inside => ?_)
        rw [others other inside]
      · intro record member
        rcases List.mem_cons.mp member with rfl | later
        · rfl
        · exact same record later

end Tracks

end Sylar.Logic
