import Sylar.Data.Grouped
import Sylar.Logic.Count
import Sylar.Logic.Reach

namespace Sylar.ModuleManager

open Data Logic

/-! `ModuleManager` under any number of `add`, `del` and `delAll` calls, in the
sections that hold `m_mutex`. `M` are the modules, told apart by their address, with
their id and type. -/

/-- What is left of a call, one section or one call of `onUnload` after another. -/
inductive Stage (I M : Type)
  | del (name : I)
  | onUnload (module : M)
  | insert (module : M)
  | copy
  deriving DecidableEq

structure State (I K M : Type) where
  modules : Table I M
  type2Modules : Table K (Table I M)
  calls : List (List (Stage I M))
  /-- the modules in the order they came to be listed -/
  entered : List M
  /-- the modules in the order of their `onUnload` -/
  unloaded : List M

inductive Action (I M : Type)
  | add (module : M)
  | del (name : I)
  | delAll
  | run (call : Nat)
  | copy (call : Nat) (tmp : List I)

variable {I K M : Type} [DecidableEq I] [DecidableEq K] [DecidableEq M]
  (getId : M → I) (getType : M → K)

namespace State

variable (s : State I K M)

def begin (call : List (Stage I M)) : State I K M :=
  { s with calls := s.calls ++ [call] }

def goOn (call : Nat) (rest : List (Stage I M)) : State I K M :=
  { s with calls := s.calls.set call rest }

def delSection (call : Nat) (name : I) (rest : List (Stage I M)) : State I K M :=
  match s.modules.lookup name with
  | none => s.goOn call rest
  | some module => { s.goOn call (.onUnload module :: rest) with
      modules := s.modules.erase name
      type2Modules := Grouped.drop s.type2Modules (getType module) (getId module) }

def addSection (call : Nat) (m : M) (rest : List (Stage I M)) : State I K M :=
  { s.goOn call rest with
    modules := s.modules.insert (getId m) m
    type2Modules := Grouped.put s.type2Modules (getType m) (getId m) m
    entered :=
      if s.modules.lookup (getId m) = some m then s.entered else s.entered ++ [m] }

/-- The copy of `delAll` is gone through in any order. -/
def step : Action I M → Option (State I K M)
  | .add m => some (s.begin [.del (getId m), .insert m])
  | .del name => some (s.begin [.del name])
  | .delAll => some (s.begin [.copy])
  | .run call =>
      match s.calls[call]? with
      | some (.del name :: rest) => some (s.delSection getId getType call name rest)
      | some (.onUnload module :: rest) =>
          some { s.goOn call rest with unloaded := s.unloaded ++ [module] }
      | some (.insert m :: rest) => some (s.addSection getId getType call m rest)
      | _ => none
  | .copy call tmp =>
      match s.calls[call]? with
      | some (.copy :: rest) =>
          if tmp.Perm s.modules.keys then
            some (s.goOn call (tmp.map Stage.del ++ rest))
          else none
      | _ => none

def listAll : List M := s.modules.entries.map Sigma.snd

def listByType (type : K) : List M :=
  match s.type2Modules.lookup type with
  | none => []
  | some table => table.entries.map Sigma.snd

/-- The calls of `onUnload` that are to come. -/
def unloading (m : M) : Nat := s.calls.flatten.count (.onUnload m)

/-- The section finds no other module under the id of the one it stores. -/
def unused : Stage I M → Bool
  | .insert m => (s.modules.lookup (getId m)).all fun old => old = m
  | _ => true

def Unused : Action I M → Prop
  | .run call => (s.calls[call]?).all (fun left => left.head?.all (s.unused getId)) = true
  | _ => True

instance : (action : Action I M) → Decidable (s.Unused getId action)
  | .add _ => inferInstanceAs (Decidable True)
  | .del _ => inferInstanceAs (Decidable True)
  | .delAll => inferInstanceAs (Decidable True)
  | .run _ => inferInstanceAs (Decidable (_ = true))
  | .copy _ _ => inferInstanceAs (Decidable True)

structure Empty (s : State I K M) : Prop where
  modules : s.modules = ∅
  type2Modules : s.type2Modules = ∅
  calls : s.calls = []
  entered : s.entered = []
  unloaded : s.unloaded = []

variable {getId : M → I} {getType : M → K} {s}

/-! What one call has left changes. -/

omit [DecidableEq K] in
theorem unloading_begin (call : List (Stage I M)) (m : M) :
    (s.begin call).unloading m = s.unloading m + call.count (.onUnload m) := by
  simp [unloading, begin]

omit [DecidableEq K] in
theorem unloading_goOn {call : Nat} {before : List (Stage I M)}
    (held : s.calls[call]? = some before) (rest : List (Stage I M)) (m : M) :
    (s.goOn call rest).unloading m + before.count (.onUnload m) =
      s.unloading m + rest.count (.onUnload m) :=
  count_flatten_set held rest (.onUnload m)

def listed (getId : M → I) (s : State I K M) (m : M) : Nat :=
  if s.modules.lookup (getId m) = some m then 1 else 0

omit [DecidableEq K] in
theorem listed_erase {module : M}
    (found : s.modules.lookup (getId module) = some module) (m : M) :
    (if (s.modules.erase (getId module)).lookup (getId m) = some m then 1 else 0) +
        (if module = m then 1 else 0) = s.listed getId m := by
  unfold listed
  rcases eq_or_ne (getId m) (getId module) with same | different
  · rw [same, AList.lookup_erase, found]
    simp
  · have apart : module ≠ m := fun equal => different (congrArg getId equal).symm
    rw [AList.lookup_erase_ne different]
    simp [apart]

omit [DecidableEq K] in
theorem listed_insert {m : M}
    (unused : ∀ old, s.modules.lookup (getId m) = some old → old = m) (other : M) :
    (if s.modules.lookup (getId m) = some m then s.entered
        else s.entered ++ [m]).count other + s.listed getId other =
      s.entered.count other +
        (if (s.modules.insert (getId m) m).lookup (getId other) = some other then 1
          else 0) := by
  unfold listed
  rcases eq_or_ne (getId other) (getId m) with same | different
  · rw [same, AList.lookup_insert]
    cases held : s.modules.lookup (getId m) with
    | none =>
        rw [if_neg (by simp), List.count_append, List.count_singleton]
        simp
    | some old =>
        obtain rfl := unused old held
        simp
  · have apart : m ≠ other := fun equal => different (congrArg getId equal).symm
    rw [AList.lookup_insert_ne different]
    split
    · rfl
    · rw [List.count_append, List.count_singleton]
      simp [apart]

/-- The indexes agree, and each stay of a module in the list has ended in a call of
`onUnload`, is about to, or goes on. -/
structure Inv (getId : M → I) (getType : M → K) (s : State I K M) : Prop where
  agree : Grouped.Agree getId getType s.modules s.type2Modules
  stays : ∀ m, s.entered.count m =
    s.unloaded.count m + s.unloading m + s.listed getId m

/-- A call goes on with as many calls of `onUnload` to come. -/
theorem Inv.goOn (inv : Inv getId getType s) {call : Nat}
    {before rest : List (Stage I M)} (held : s.calls[call]? = some before)
    (same : ∀ m, rest.count (.onUnload m) = before.count (.onUnload m)) :
    Inv getId getType (s.goOn call rest) where
  agree := inv.agree
  stays := by
    intro m
    have moved := unloading_goOn held rest m
    have kept := inv.stays m
    rw [same m] at moved
    change s.entered.count m =
      s.unloaded.count m + (s.goOn call rest).unloading m + s.listed getId m
    omega

omit [DecidableEq M] in
theorem delSection_none {call : Nat} {name : I} {rest : List (Stage I M)}
    (absent : s.modules.lookup name = none) :
    s.delSection getId getType call name rest = s.goOn call rest := by
  rw [delSection, absent]

omit [DecidableEq M] in
theorem delSection_some {call : Nat} {name : I} {rest : List (Stage I M)} {module : M}
    (found : s.modules.lookup name = some module) :
    s.delSection getId getType call name rest =
      { s.goOn call (.onUnload module :: rest) with
        modules := s.modules.erase name
        type2Modules :=
          Grouped.drop s.type2Modules (getType module) (getId module) } := by
  rw [delSection, found]

theorem Inv.delSection (inv : Inv getId getType s) {call : Nat} {name : I}
    {rest : List (Stage I M)} (held : s.calls[call]? = some (.del name :: rest)) :
    Inv getId getType (s.delSection getId getType call name rest) := by
  cases found : s.modules.lookup name with
  | none =>
      rw [delSection_none found]
      exact inv.goOn held fun m => by simp
  | some module =>
      obtain rfl := inv.agree.keyed name module found
      rw [delSection_some found]
      refine ⟨inv.agree.drop found, fun m => ?_⟩
      have moved := unloading_goOn held (.onUnload module :: rest) m
      have before := inv.stays m
      have gone := listed_erase found m
      rw [List.count_cons_of_ne (by simp), List.count_cons] at moved
      simp only [beq_iff_eq, Stage.onUnload.injEq] at moved
      change s.entered.count m = s.unloaded.count m +
        (s.goOn call (.onUnload module :: rest)).unloading m +
          (if (s.modules.erase (getId module)).lookup (getId m) = some m then 1
            else 0)
      omega

theorem Inv.addSection (inv : Inv getId getType s) {call : Nat} {m : M}
    {rest : List (Stage I M)} (held : s.calls[call]? = some (.insert m :: rest))
    (unused : ∀ old, s.modules.lookup (getId m) = some old → old = m) :
    Inv getId getType (s.addSection getId getType call m rest) where
  agree := inv.agree.put m unused
  stays := by
    intro other
    have moved := unloading_goOn held rest other
    have before := inv.stays other
    have entered := listed_insert unused other
    rw [List.count_cons_of_ne (by simp)] at moved
    change (if s.modules.lookup (getId m) = some m then s.entered
        else s.entered ++ [m]).count other =
      s.unloaded.count other + (s.goOn call rest).unloading other +
        (if (s.modules.insert (getId m) m).lookup (getId other) = some other then 1
          else 0)
    omega

theorem Inv.onUnload (inv : Inv getId getType s) {call : Nat} {m : M}
    {rest : List (Stage I M)}
    (held : s.calls[call]? = some (.onUnload m :: rest)) :
    Inv getId getType { s.goOn call rest with unloaded := s.unloaded ++ [m] } where
  agree := inv.agree
  stays := by
    intro other
    have moved := unloading_goOn held rest other
    have before := inv.stays other
    rw [List.count_cons] at moved
    change s.entered.count other = (s.unloaded ++ [m]).count other +
      (s.goOn call rest).unloading other + s.listed getId other
    simp only [beq_iff_eq, Stage.onUnload.injEq] at moved
    rw [List.count_append, List.count_singleton]
    simp only [beq_iff_eq]
    omega

theorem Inv.begin (inv : Inv getId getType s) {call : List (Stage I M)}
    (quiet : ∀ m, call.count (.onUnload m) = 0) :
    Inv getId getType (s.begin call) where
  agree := inv.agree
  stays := by
    intro m
    have before := inv.stays m
    have begun := unloading_begin (s := s) call m
    rw [quiet m] at begun
    change s.entered.count m =
      s.unloaded.count m + (s.begin call).unloading m + s.listed getId m
    omega

theorem Inv.step (inv : Inv getId getType s) {action : Action I M}
    (unused : s.Unused getId action) {t : State I K M}
    (taken : s.step getId getType action = some t) : Inv getId getType t := by
  cases action with
  | add m =>
      cases taken
      exact inv.begin (by simp)
  | del name =>
      cases taken
      exact inv.begin (by simp)
  | delAll =>
      cases taken
      exact inv.begin (by simp)
  | run call =>
      simp only [State.step] at taken
      split at taken
      · rename_i name rest held
        cases taken
        exact inv.delSection held
      · rename_i module rest held
        cases taken
        exact inv.onUnload held
      · rename_i m rest held
        cases taken
        simp only [Unused, held, Option.all_some, List.head?_cons, State.unused,
          Option.all_eq_true, decide_eq_true_eq] at unused
        exact inv.addSection held unused
      · cases taken
  | copy call tmp =>
      simp only [State.step] at taken
      split at taken
      · rename_i rest held
        split at taken
        · cases taken
          refine inv.goOn held fun m => ?_
          rw [List.count_append, List.count_eq_zero.mpr (by simp)]
          simp
        · cases taken
      · cases taken

theorem Empty.inv (empty : s.Empty) : Inv getId getType s where
  agree := by
    rw [empty.modules, empty.type2Modules]
    exact .empty getId getType
  stays := by
    intro m
    simp [unloading, listed, empty.modules, empty.calls, empty.entered,
      empty.unloaded]

theorem inv_run
    (reached : Reach Empty (StepWhen (step getId getType) (Unused getId)) s) :
    Inv getId getType s :=
  @Reach.invariant _ _ _ _ (Inv getId getType) (fun _ empty => empty.inv)
    (fun _ _ _ inv taken => inv.step taken.1 taken.2) _ reached

/-! What the lists show. -/

theorem mem_listAll (inv : Inv getId getType s) (m : M) :
    m ∈ s.listAll ↔ s.modules.lookup (getId m) = some m := by
  unfold listAll
  rw [List.mem_map]
  constructor
  · rintro ⟨⟨name, module⟩, member, rfl⟩
    have held := AList.mem_lookup_iff.mpr member
    rwa [inv.agree.keyed name module held]
  · intro held
    exact ⟨⟨getId m, m⟩, AList.mem_lookup_iff.mp held, rfl⟩

theorem mem_listByType (inv : Inv getId getType s) (m : M) (type : K) :
    m ∈ s.listByType type ↔
      s.modules.lookup (getId m) = some m ∧ getType m = type := by
  have under := inv.agree.same type
  have here : (s.modules.lookup (getId m)).filter (fun value => getType value = type) =
      some m ↔ s.modules.lookup (getId m) = some m ∧ getType m = type := by
    rw [Option.filter_eq_some_iff]
    simp
  rw [← here, ← under]
  unfold listByType Grouped.find at *
  cases held : s.type2Modules.lookup type with
  | none => simp
  | some table =>
      simp only [held, Option.bind_some] at under ⊢
      rw [List.mem_map]
      constructor
      · rintro ⟨⟨name, module⟩, member, rfl⟩
        have inside := AList.mem_lookup_iff.mpr member
        have stored := inside
        rw [Option.mem_def, under, Option.filter_eq_some_iff] at stored
        rwa [inv.agree.keyed name module stored.1]
      · intro inside
        exact ⟨⟨getId m, m⟩, AList.mem_lookup_iff.mp inside, rfl⟩

/-- Both maps have the same modules, no type has an empty table, and `onUnload` is
called once for each stay of a module in the maps. -/
structure Agrees (getId : M → I) (getType : M → K) (s : State I K M) : Prop where
  indexes : ∀ m, s.modules.lookup (getId m) = some m ↔
    ∃ table, s.type2Modules.lookup (getType m) = some table ∧
      table.lookup (getId m) = some m
  lists : ∀ m type, m ∈ s.listByType type ↔ m ∈ s.listAll ∧ getType m = type
  occupied : ∀ type table, s.type2Modules.lookup type = some table → table ≠ ∅
  unloads : ∀ m, s.entered.count m = s.unloaded.count m + s.unloading m +
    if m ∈ s.listAll then 1 else 0

theorem Inv.agrees (inv : Inv getId getType s) : Agrees getId getType s where
  indexes := by
    intro m
    have under := inv.agree.same (getType m) (getId m)
    rw [Grouped.find] at under
    rw [← Option.bind_eq_some_iff, under, Option.filter_eq_some_iff]
    simp
  lists := by
    intro m type
    rw [mem_listByType inv, mem_listAll inv]
  occupied := inv.agree.occupied
  unloads := by
    intro m
    simp only [mem_listAll inv]
    exact inv.stays m

/-- The indexes agree in every run in which no section of `add` finds another module
under the id. -/
theorem indexes_agree
    (reached : Reach Empty (StepWhen (step getId getType) (Unused getId)) s) :
    Agrees getId getType s :=
  (inv_run reached).agrees

/-! Modules given by their id and type. -/

def bare : State Nat Nat (Nat × Nat × Nat) where
  modules := ∅
  type2Modules := ∅
  calls := []
  entered := []
  unloaded := []

theorem bare_empty : Empty bare := ⟨rfl, rfl, rfl, rfl, rfl⟩

def moduleId (module : Nat × Nat × Nat) : Nat := module.2.1

def moduleType (module : Nat × Nat × Nat) : Nat := module.2.2

/-- A module is replaced by one with its id and another type while `delAll` goes
through its copy. -/
theorem indexes_agree_replaced :
    ∃ s : State Nat Nat (Nat × Nat × Nat),
      s.listAll = [] ∧ s.entered = [(0, 7, 1), (1, 7, 2)] ∧
      s.unloaded = [(0, 7, 1), (1, 7, 2)] ∧ Agrees moduleId moduleType s := by
  obtain ⟨s, ran, rest⟩ : ∃ s, exec (guarded (step moduleId moduleType)
        (Unused moduleId)) bare
      [.add (0, 7, 1), .run 0, .run 0, .add (1, 7, 2), .delAll, .copy 2 [7], .run 1,
        .run 1, .run 1, .run 2, .run 2] = some s ∧
      s.listAll = [] ∧ s.entered = [(0, 7, 1), (1, 7, 2)] ∧
      s.unloaded = [(0, 7, 1), (1, 7, 2)] := ⟨_, rfl, rfl, rfl, rfl⟩
  have agrees := indexes_agree (reach_guarded (.start _ bare_empty) ran)
  exact ⟨s, rest.1, rest.2.1, rest.2.2, agrees⟩

/-- Two `add` calls with one id: the module of the first is left in the second map and
never told. -/
theorem indexes_disagree :
    ∃ s : State Nat Nat (Nat × Nat × Nat),
      Reach Empty (StepOf (step moduleId moduleType)) s ∧
      s.calls = [[], [], []] ∧ s.listAll = [] ∧ s.listByType 1 = [(0, 7, 1)] ∧
      s.unloaded = [(1, 7, 2)] ∧ ¬Agrees moduleId moduleType s := by
  obtain ⟨s, ran, calls, all, typed, unloaded⟩ :
      ∃ s, exec (step moduleId moduleType) bare
        [.add (0, 7, 1), .add (1, 7, 2), .run 0, .run 1, .run 0, .run 1, .del 7,
          .run 2, .run 2] = some s ∧
        s.calls = [[], [], []] ∧ s.listAll = [] ∧ s.listByType 1 = [(0, 7, 1)] ∧
        s.unloaded = [(1, 7, 2)] := ⟨_, rfl, rfl, rfl, rfl, rfl⟩
  refine ⟨s, reach_exec (.start _ bare_empty) ran, calls, all, typed, unloaded, ?_⟩
  intro agrees
  have listed := ((agrees.lists (0, 7, 1) 1).mp (by rw [typed]; decide)).1
  rw [all] at listed
  cases listed

end State

end Sylar.ModuleManager
