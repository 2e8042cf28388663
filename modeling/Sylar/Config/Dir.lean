import Mathlib.Data.List.Nodup
import Sylar.Config.Listeners
import Sylar.Config.Load

namespace Sylar.ConfDir

open Config Logic

/-! `LoadFromConfDir` step by step, while the files are edited. `K` are the types of
variables, `V` their values. -/

structure File where
  st_mtime : UInt64
  /-- `none` when `YAML::LoadFile` throws -/
  root : Option YAML.Node

structure Env (K V : Type) where
  yaml : YAML.Yaml
  s_datas : ConfigVarMap K V
  /-- `none` is a `std::exception`. -/
  fromStr : String → String → Option V
  /-- What the listeners of a variable throw, from its name and the two values. -/
  cbs : String → V → V → Option ConfigVar.Thrown

/-- Where the loop over the files stands. -/
inductive Loader
  | idle
  | next (force : Bool) (files : List String)
  | stated (force : Bool) (i : String) (st_mtime : UInt64) (files : List String)
  /-- The time is recorded, the file is not yet read. -/
  | parsing (force : Bool) (i : String) (files : List String)
  | applying (force : Bool) (i : String) (calls : List (String × String))
      (files : List String)

structure State (V : Type) where
  /-- what `ListAllFile` finds, in its order -/
  disk : List (String × File)
  loader : Loader
  s_file2modifytime : String → UInt64
  value : String → V
  /-- every call of listeners, with the name and the two values -/
  told : List (String × V × V)

inductive Action
  | edit (disk : List (String × File))
  | load (force : Bool)
  | turn

variable {K V : Type} [DecidableEq K] [BEq V]

namespace State

def go (s : State V) (loader : Loader) : State V := { s with loader := loader }

def record (s : State V) (i : String) (st_mtime : UInt64) : State V :=
  { s with s_file2modifytime := Function.update s.s_file2modifytime i st_mtime }

/-- Whether an exception leaves it, beside the state. -/
def fromString (env : Env K V) (s : State V) (name val : String) : State V × Bool :=
  match env.fromStr name val with
  | none => (s, false)
  | some v =>
      if v == s.value name then (s, false)
      else
        let told := { s with told := s.told ++ [(name, s.value name, v)] }
        match env.cbs name (s.value name) v with
        | none => ({ told with value := Function.update s.value name v }, false)
        | some .std => (told, false)
        | some .other => (told, true)

/-- A file that is gone has no `st_mtime` to go on with. -/
def turn (env : Env K V) (s : State V) : Option (State V) :=
  match s.loader with
  | .idle => none
  | .next _ [] => some (s.go .idle)
  | .next force (i :: files) =>
      (s.disk.lookup i).map fun file => s.go (.stated force i file.st_mtime files)
  | .stated force i st_mtime files =>
      if !force && s.s_file2modifytime i == st_mtime then
        some (s.go (.next force files))
      else some ((s.record i st_mtime).go (.parsing force i files))
  | .parsing force i files =>
      match (s.disk.lookup i).bind File.root with
      | none => some (s.go (.next force files))
      | some root =>
          some (s.go (.applying force i (loadFromYaml env.yaml env.s_datas root) files))
  | .applying force _ [] files => some (s.go (.next force files))
  | .applying force i (call :: calls) files =>
      let after := s.fromString env call.1 call.2
      if after.2 then some (after.1.go (.next force files))
      else some (after.1.go (.applying force i calls files))

def step (env : Env K V) (s : State V) : Action → Option (State V)
  | .edit disk => some { s with disk := disk }
  | .load force =>
      match s.loader with
      | .idle => some (s.go (.next force (s.disk.map Prod.fst)))
      | _ => none
  | .turn => s.turn env

end State

def Env.calls (env : Env K V) (file : File) : List (String × String) :=
  match file.root with
  | none => []
  | some root => loadFromYaml env.yaml env.s_datas root

/-- No two nodes on the disk name the same variable. -/
structure Env.Once (env : Env K V) (disk : List (String × File)) : Prop where
  paths : (disk.map Prod.fst).Nodup
  names : (disk.flatMap fun entry => (env.calls entry.2).map Prod.fst).Nodup

def Env.Returns (env : Env K V) : Prop :=
  ∀ name old_value new_value, env.cbs name old_value new_value = none

/-- A file that is written gets another time than the one on record for it. -/
def State.Permits (env : Env K V) (s : State V) : Action → Prop
  | .edit disk =>
      env.Once disk ∧ ∀ entry ∈ disk,
        entry ∈ s.disk ∨ entry.2.st_mtime ≠ s.s_file2modifytime entry.1
  | _ => True

structure State.Initial (env : Env K V) (s : State V) : Prop where
  once : env.Once s.disk
  loader : s.loader = .idle
  s_file2modifytime : ∀ i, s.s_file2modifytime i = 0
  written : ∀ entry ∈ s.disk, entry.2.st_mtime ≠ 0

/-- Every variable has the value that the calls give it. -/
def Settled (env : Env K V) (value : String → V) (calls : List (String × String)) : Prop :=
  ∀ call ∈ calls, ∀ v, env.fromStr call.1 call.2 = some v → (v == value call.1) = true

/-- What the values have of a file whose time is on record. -/
def State.Applied (env : Env K V) (s : State V) (i : String) (file : File) : Prop :=
  match s.loader with
  | .parsing _ j _ => i ≠ j → Settled env s.value (env.calls file)
  | .applying _ j calls _ =>
      (i = j → ∃ done, env.calls file = done ++ calls ∧ Settled env s.value done) ∧
      (i ≠ j → Settled env s.value (env.calls file) ∧
        ∀ call ∈ calls, call.1 ∉ (env.calls file).map Prod.fst)
  | _ => Settled env s.value (env.calls file)

structure State.Inv (env : Env K V) (s : State V) : Prop where
  once : env.Once s.disk
  current : ∀ i file, (i, file) ∈ s.disk →
    s.s_file2modifytime i = file.st_mtime → s.Applied env i file

/-- The loop body for one file that stays as it is. -/
def State.loadFile (env : Env K V) (force : Bool) (s : State V) (i : String) : State V :=
  match s.disk.lookup i with
  | none => s
  | some file =>
      if !force && s.s_file2modifytime i == file.st_mtime then s
      else
        (env.calls file).foldl (fun s call => (s.fromString env call.1 call.2).1)
          (s.record i file.st_mtime)

def State.Turns (env : Env K V) (s next : State V) : Prop :=
  ∃ turns, exec (State.step env) s (List.replicate turns .turn) = some next

theorem mem_of_lookup {disk : List (String × File)} {i : String} {file : File}
    (found : disk.lookup i = some file) : (i, file) ∈ disk := by
  induction disk with
  | nil => cases found
  | cons entry disk ih =>
      obtain ⟨path, first⟩ := entry
      rw [List.lookup_cons] at found
      split at found
      · rename_i same
        cases found
        cases eq_of_beq same
        exact List.mem_cons_self
      · exact List.mem_cons_of_mem _ (ih found)

namespace Env.Once

variable {env : Env K V} {disk : List (String × File)} {i j : String} {file other : File}

omit [DecidableEq K] [BEq V] in
theorem unique (once : env.Once disk) (one : (i, file) ∈ disk) (two : (i, other) ∈ disk) :
    file = other := by
  have same := List.inj_on_of_nodup_map once.paths one two rfl
  exact congrArg Prod.snd same

omit [DecidableEq K] [BEq V] in
theorem lookup (once : env.Once disk) (inside : (i, file) ∈ disk) :
    disk.lookup i = some file := by
  cases found : disk.lookup i with
  | some other => rw [once.unique inside (mem_of_lookup found)]
  | none =>
      rw [List.lookup_eq_none_iff] at found
      have other := found (i, file) inside
      simp at other

omit [DecidableEq K] [BEq V] in
theorem calls_nodup (once : env.Once disk) (inside : (i, file) ∈ disk) :
    ((env.calls file).map Prod.fst).Nodup :=
  (List.nodup_flatMap.mp once.names).1 (i, file) inside

omit [DecidableEq K] [BEq V] in
theorem apart (once : env.Once disk) (one : (i, file) ∈ disk) (two : (j, other) ∈ disk)
    (different : i ≠ j) :
    ∀ call ∈ env.calls other, call.1 ∉ (env.calls file).map Prod.fst := by
  intro call inside also
  obtain ⟨-, pairs⟩ := List.nodup_flatMap.mp once.names
  have entries : (i, file) ≠ (j, other) := fun same => different (congrArg Prod.fst same)
  have symm : Std.Symm (Function.onFun List.Disjoint fun entry : String × File =>
      (env.calls entry.2).map Prod.fst) :=
    ⟨fun _ _ disjoint _ one two => disjoint two one⟩
  exact pairs.forall one two entries also (List.mem_map_of_mem inside)

end Env.Once

namespace State

variable {env : Env K V} {s next after : State V} {i : String} {file : File}

omit [DecidableEq K] in
theorem fromString_same (env : Env K V) (s : State V) (name val : String) :
    (s.fromString env name val).1.disk = s.disk ∧
      (s.fromString env name val).1.s_file2modifytime = s.s_file2modifytime ∧
      ∀ other, other ≠ name → (s.fromString env name val).1.value other = s.value other := by
  unfold fromString
  split
  · exact ⟨rfl, rfl, fun _ _ => rfl⟩
  · split
    · exact ⟨rfl, rfl, fun _ _ => rfl⟩
    · dsimp only
      split
      · exact ⟨rfl, rfl, fun _ different => Function.update_of_ne different ..⟩
      · exact ⟨rfl, rfl, fun _ _ => rfl⟩
      · exact ⟨rfl, rfl, fun _ _ => rfl⟩

omit [DecidableEq K] in
theorem fromString_go (name val : String) (loader : Loader) :
    (s.go loader).fromString env name val =
      ((s.fromString env name val).1.go loader, (s.fromString env name val).2) := by
  unfold fromString
  cases env.fromStr name val with
  | none => rfl
  | some v =>
      by_cases same : (v == s.value name) = true
      · simp [go, same]
      · cases told : env.cbs name (s.value name) v with
        | none => simp [go, same, told]
        | some thrown => cases thrown <;> simp [go, same, told]

omit [DecidableEq K] in
theorem fromString_returns (returns : env.Returns) (name val : String) :
    (s.fromString env name val).2 = false := by
  unfold fromString
  split
  · rfl
  · split
    · rfl
    · dsimp only
      rw [returns]

omit [DecidableEq K] in
theorem fromString_value [ReflBEq V] (returns : env.Returns) {name val : String} {v : V}
    (parsed : env.fromStr name val = some v) :
    (v == (s.fromString env name val).1.value name) = true := by
  unfold fromString
  rw [parsed]
  dsimp only
  split
  · assumption
  · rw [returns]
    dsimp only
    rw [Function.update_self]
    exact BEq.rfl

omit [DecidableEq K] in
theorem fromString_settled {name val : String}
    (settled : ∀ v, env.fromStr name val = some v → (v == s.value name) = true) :
    s.fromString env name val = (s, false) := by
  unfold fromString
  split
  · rfl
  · rename_i v parsed
    rw [if_pos (settled v parsed)]

omit [DecidableEq K] in
theorem Inv.goes (inv : s.Inv env) {loader : Loader}
    (applied : ∀ j other, (j, other) ∈ s.disk → s.Applied env j other →
      (s.go loader).Applied env j other) : (s.go loader).Inv env where
  once := inv.once
  current j other inside recorded :=
    applied j other inside (inv.current j other inside recorded)

omit [DecidableEq K] in
/-- The variables that a call of another file sets are not those of this one. -/
theorem Inv.parsed (inv : s.Inv env) {force : Bool} {files : List String}
    (here : s.loader = .parsing force i files) (listed : (i, file) ∈ s.disk) :
    (s.go (.applying force i (env.calls file) files)).Inv env := by
  apply inv.goes
  intro j other inside applied
  rw [Applied, here] at applied
  constructor
  · intro same
    subst same
    rw [inv.once.unique inside listed]
    exact ⟨[], rfl, fun call member => absurd member List.not_mem_nil⟩
  · exact fun different => ⟨applied different, inv.once.apart inside listed different⟩

omit [DecidableEq K] in
theorem Inv.call [ReflBEq V] (returns : env.Returns) (inv : s.Inv env) {force : Bool}
    {call : String × String} {calls : List (String × String)} {files : List String}
    (here : s.loader = .applying force i (call :: calls) files) :
    ((s.fromString env call.1 call.2).1.go (.applying force i calls files)).Inv env := by
  obtain ⟨disk, times, others⟩ := fromString_same env s call.1 call.2
  have keeps {one : String × String} (different : one.1 ≠ call.1)
      (settled : ∀ v, env.fromStr one.1 one.2 = some v → (v == s.value one.1) = true) :
      ∀ v, env.fromStr one.1 one.2 = some v →
        (v == (s.fromString env call.1 call.2).1.value one.1) = true := by
    rw [others one.1 different]
    exact settled
  constructor
  · exact disk ▸ inv.once
  · intro j other inside recorded
    change (j, other) ∈ (s.fromString env call.1 call.2).1.disk at inside
    change (s.fromString env call.1 call.2).1.s_file2modifytime j = _ at recorded
    rw [disk] at inside
    rw [times] at recorded
    have applied := inv.current j other inside recorded
    rw [Applied, here] at applied
    constructor
    · intro same
      obtain ⟨done, split, settled⟩ := applied.1 same
      have nodup := inv.once.calls_nodup inside
      rw [split, List.map_append, List.nodup_append'] at nodup
      refine ⟨done ++ [call], by rw [split, List.append_assoc]; rfl, ?_⟩
      intro one member
      rcases List.mem_append.mp member with before | last
      · apply keeps _ (settled one before)
        intro same
        apply nodup.2.2 (List.mem_map_of_mem before)
        rw [same]
        exact List.mem_cons_self
      · cases List.mem_singleton.mp last
        exact fun v => fromString_value returns
    · intro different
      obtain ⟨settled, apart⟩ := applied.2 different
      constructor
      · intro one member
        apply keeps _ (settled one member)
        intro same
        apply apart call List.mem_cons_self
        rw [← same]
        exact List.mem_map_of_mem member
      · exact fun later member => apart later (List.mem_cons_of_mem _ member)

omit [DecidableEq K] in
/-- No step leads away from the values of the files on record. -/
theorem Inv.turn [ReflBEq V] (returns : env.Returns) (inv : s.Inv env)
    (taken : s.turn env = some next) : next.Inv env := by
  unfold State.turn at taken
  split at taken
  · cases taken
  · rename_i force here
    cases taken
    apply inv.goes
    intro j other inside applied
    rw [Applied, here] at applied
    exact applied
  · rename_i force i files here
    obtain ⟨file, found, rfl⟩ := Option.map_eq_some_iff.mp taken
    apply inv.goes
    intro j other inside applied
    rw [Applied, here] at applied
    exact applied
  · rename_i force i st_mtime files here
    split at taken
    · cases taken
      apply inv.goes
      intro j other inside applied
      rw [Applied, here] at applied
      exact applied
    · cases taken
      refine ⟨inv.once, fun j other inside recorded different => ?_⟩
      change Function.update s.s_file2modifytime i st_mtime j = _ at recorded
      rw [Function.update_of_ne different] at recorded
      have applied := inv.current j other inside recorded
      rw [Applied, here] at applied
      exact applied
  · rename_i force i files here
    split at taken
    · rename_i failed
      cases taken
      apply inv.goes
      intro j other inside applied
      rw [Applied, here] at applied
      change Settled env s.value (env.calls other)
      by_cases same : j = i
      · subst same
        rw [inv.once.lookup inside] at failed
        have empty : env.calls other = [] := by
          rw [Env.calls, show other.root = none from failed]
        rw [empty]
        exact fun call member => absurd member List.not_mem_nil
      · exact applied same
    · rename_i root found
      cases taken
      obtain ⟨file, listed, parsed⟩ := Option.bind_eq_some_iff.mp found
      have calls : loadFromYaml env.yaml env.s_datas root = env.calls file := by
        rw [Env.calls, parsed]
      rw [calls]
      exact inv.parsed here (mem_of_lookup listed)
  · rename_i force i files here
    cases taken
    apply inv.goes
    intro j other inside applied
    rw [Applied, here] at applied
    change Settled env s.value (env.calls other)
    by_cases same : j = i
    · obtain ⟨done, calls, settled⟩ := applied.1 same
      rw [calls, List.append_nil]
      exact settled
    · exact (applied.2 same).1
  · rename_i force i call calls files here
    dsimp only at taken
    rw [fromString_returns returns] at taken
    cases taken
    exact inv.call returns here

omit [DecidableEq K] in
theorem Inv.step [ReflBEq V] (returns : env.Returns) (inv : s.Inv env) {action : Action}
    (permits : s.Permits env action) (taken : s.step env action = some next) :
    next.Inv env := by
  cases action with
  | edit disk =>
      cases taken
      obtain ⟨once, changed⟩ := permits
      refine ⟨once, fun i file inside recorded => ?_⟩
      rcases changed (i, file) inside with kept | written
      · exact inv.current i file kept recorded
      · exact absurd recorded.symm written
  | load force =>
      rw [State.step] at taken
      split at taken
      · rename_i idle
        cases taken
        apply inv.goes
        intro j other inside applied
        rw [Applied, idle] at applied
        exact applied
      · cases taken
  | turn => exact inv.turn returns taken

omit [DecidableEq K] in
theorem Inv.run [ReflBEq V] (returns : env.Returns)
    (reached : Reach (Initial env) (StepWhen (State.step env) (Permits env)) s) :
    s.Inv env := by
  induction reached with
  | start s initial =>
      refine ⟨initial.once, fun i file inside recorded => ?_⟩
      rw [initial.s_file2modifytime] at recorded
      exact absurd recorded.symm (initial.written (i, file) inside)
  | step s action next reached taken ih => exact ih.step returns taken.1 taken.2

/-! A load without an edit in between. -/

omit [DecidableEq K] in
theorem Turns.refl : s.Turns env s := ⟨0, rfl⟩

omit [DecidableEq K] in
theorem Turns.head (taken : s.turn env = some next) (turns : next.Turns env after) :
    s.Turns env after := by
  obtain ⟨n, ran⟩ := turns
  refine ⟨n + 1, ?_⟩
  rw [List.replicate_succ, exec, State.step, taken]
  exact ran

omit [DecidableEq K] in
theorem Turns.trans (first : s.Turns env next) (second : next.Turns env after) :
    s.Turns env after := by
  obtain ⟨n, ran⟩ := first
  obtain ⟨m, rest⟩ := second
  refine ⟨n + m, ?_⟩
  rw [List.replicate_add, exec_append, ran]
  exact rest

omit [DecidableEq K] in
theorem Turns.inv [ReflBEq V] (returns : env.Returns) (turns : s.Turns env next)
    (inv : s.Inv env) : next.Inv env := by
  obtain ⟨n, ran⟩ := turns
  induction n generalizing s with
  | zero =>
      cases ran
      exact inv
  | succ n ih =>
      obtain ⟨between, taken, rest⟩ := Option.bind_eq_some_iff.mp ran
      exact ih (inv.turn returns taken) rest

omit [DecidableEq K] in
theorem turns_calls (returns : env.Returns) (s : State V) (force : Bool)
    (calls : List (String × String)) (files : List String) :
    (s.go (.applying force i calls files)).Turns env
      ((calls.foldl (fun s call => (s.fromString env call.1 call.2).1) s).go
        (.next force files)) := by
  induction calls generalizing s with
  | nil => exact .head rfl .refl
  | cons call calls ih =>
      have called : (s.go (.applying force i (call :: calls) files)).turn env =
          some ((s.fromString env call.1 call.2).1.go (.applying force i calls files)) := by
        unfold turn
        change (if ((s.go (.applying force i (call :: calls) files)).fromString env
          call.1 call.2).2 = true then _ else _) = _
        rw [fromString_go, fromString_returns returns]
        rfl
      exact .head called (ih (s.fromString env call.1 call.2).1)

omit [DecidableEq K] in
theorem turns_loadFile (returns : env.Returns) (once : env.Once s.disk) (force : Bool)
    (files : List String) (listed : (i, file) ∈ s.disk) :
    (s.go (.next force (i :: files))).Turns env
      ((s.loadFile env force i).go (.next force files)) := by
  have found := once.lookup listed
  have stat : (s.go (.next force (i :: files))).turn env =
      some (s.go (.stated force i file.st_mtime files)) := by
    change (s.disk.lookup i).map _ = _
    rw [found]
    rfl
  apply Turns.head stat
  rw [loadFile, found]
  dsimp only
  split
  · rename_i same
    apply Turns.head _ .refl
    exact if_pos same
  · rename_i changed
    have record : (s.go (.stated force i file.st_mtime files)).turn env =
        some ((s.record i file.st_mtime).go (.parsing force i files)) := if_neg changed
    apply Turns.head record
    have parse : ((s.record i file.st_mtime).go (.parsing force i files)).turn env =
        match file.root with
        | none => some ((s.record i file.st_mtime).go (.next force files))
        | some root => some ((s.record i file.st_mtime).go
            (.applying force i (loadFromYaml env.yaml env.s_datas root) files)) := by
      change (match (s.disk.lookup i).bind File.root with | none => _ | some root => _) = _
      rw [found]
      rfl
    cases parsed : file.root with
    | none =>
        rw [parsed] at parse
        apply Turns.head parse
        rw [Env.calls, parsed]
        exact .refl
    | some root =>
        rw [parsed] at parse
        apply Turns.head parse
        rw [Env.calls, parsed]
        exact turns_calls returns ..

omit [DecidableEq K] in
theorem calls_settled {calls : List (String × String)}
    (settled : Settled env s.value calls) :
    calls.foldl (fun s call => (s.fromString env call.1 call.2).1) s = s := by
  induction calls with
  | nil => rfl
  | cons call calls ih =>
      rw [List.foldl_cons, fromString_settled (settled call List.mem_cons_self)]
      exact ih fun later member => settled later (List.mem_cons_of_mem _ member)

omit [DecidableEq K] in
/-- Reading a file again whose time is on record does nothing. -/
theorem loadFile_force (inv : (s.go .idle).Inv env) (listed : (i, file) ∈ s.disk) :
    s.loadFile env true i = s.loadFile env false i := by
  have once : env.Once s.disk := inv.once
  have found := once.lookup listed
  unfold loadFile
  rw [found]
  dsimp only
  by_cases recorded : s.s_file2modifytime i = file.st_mtime
  · have same : s.record i file.st_mtime = s := by
      unfold record
      rw [← recorded, Function.update_eq_self]
    have settled : Settled env s.value (env.calls file) :=
      inv.current i file listed recorded
    rw [same, calls_settled settled, ite_self, ite_self]
  · simp [recorded]

omit [DecidableEq K] in
theorem calls_same (env : Env K V) (calls : List (String × String)) (s : State V) :
    (calls.foldl (fun s call => (s.fromString env call.1 call.2).1) s).disk = s.disk ∧
      (calls.foldl (fun s call => (s.fromString env call.1 call.2).1) s).s_file2modifytime =
        s.s_file2modifytime := by
  induction calls generalizing s with
  | nil => exact ⟨rfl, rfl⟩
  | cons call calls ih =>
      obtain ⟨disk, times, -⟩ := fromString_same env s call.1 call.2
      obtain ⟨disks, timings⟩ := ih (s.fromString env call.1 call.2).1
      exact ⟨disks.trans disk, timings.trans times⟩

omit [DecidableEq K] in
/-- A file is on record after its turn, and no other file is forgotten. -/
theorem loadFile_records (once : env.Once s.disk) (listed : (i, file) ∈ s.disk)
    (force : Bool) :
    (s.loadFile env force i).disk = s.disk ∧
      (s.loadFile env force i).s_file2modifytime i = file.st_mtime ∧
      ∀ other, other ≠ i →
        (s.loadFile env force i).s_file2modifytime other = s.s_file2modifytime other := by
  unfold loadFile
  rw [once.lookup listed]
  dsimp only
  split
  · rename_i skipped
    refine ⟨rfl, ?_, fun _ _ => rfl⟩
    simp at skipped
    exact skipped.2
  · obtain ⟨disk, times⟩ := calls_same env (env.calls file) (s.record i file.st_mtime)
    rw [disk, times]
    exact ⟨rfl, Function.update_self .., fun _ different => Function.update_of_ne different ..⟩

omit [DecidableEq K] in
/-- The loop over the files, with and without `force`. -/
theorem turns_files [ReflBEq V] (returns : env.Returns) (s : State V)
    (inv : (s.go .idle).Inv env) (files : List (String × File))
    (listed : ∀ entry ∈ files, entry ∈ s.disk) :
    ∃ after : State V, (after.go .idle).Inv env ∧ after.disk = s.disk ∧
      (∀ force, (s.go (.next force (files.map Prod.fst))).Turns env (after.go .idle)) ∧
      (∀ entry ∈ s.disk, s.s_file2modifytime entry.1 = entry.2.st_mtime →
        after.s_file2modifytime entry.1 = entry.2.st_mtime) ∧
      ∀ entry ∈ files, after.s_file2modifytime entry.1 = entry.2.st_mtime := by
  induction files generalizing s with
  | nil =>
      refine ⟨s, inv, rfl, fun force => .head rfl .refl, fun _ _ => id, ?_⟩
      exact fun entry member => absurd member List.not_mem_nil
  | cons entry files ih =>
      obtain ⟨i, file⟩ := entry
      have here := listed (i, file) List.mem_cons_self
      have once : env.Once s.disk := inv.once
      have turned (force : Bool) (rest : List String) :
          (s.go (.next force (i :: rest))).Turns env
            ((s.loadFile env true i).go (.next force rest)) := by
        have turns := turns_loadFile returns once force rest here
        cases force with
        | true => exact turns
        | false => rwa [loadFile_force inv here]
      obtain ⟨disk, recorded, others⟩ := loadFile_records once here true
      have kept : ((s.loadFile env true i).go .idle).Inv env := by
        have started : (s.go (.next true [i])).Inv env := inv.goes fun _ _ _ => id
        exact ((turned true []).inv returns started).goes fun _ _ _ => id
      obtain ⟨after, final, same, turns, known, done⟩ := ih _ kept (by
        rw [disk]
        exact fun entry member => listed entry (List.mem_cons_of_mem _ member))
      rw [disk] at same known
      have stays (entry : String × File) (inside : entry ∈ s.disk)
          (before : s.s_file2modifytime entry.1 = entry.2.st_mtime) :
          (s.loadFile env true i).s_file2modifytime entry.1 = entry.2.st_mtime := by
        by_cases whose : entry.1 = i
        · have file : entry.2 = file := once.unique (whose ▸ inside) here
          rw [whose, file]
          exact recorded
        · rw [others entry.1 whose]
          exact before
      refine ⟨after, final, same, fun force => (turned force _).trans (turns force), ?_, ?_⟩
      · exact fun entry inside before => known entry inside (stays entry inside before)
      · intro entry member
        rcases List.mem_cons.mp member with rfl | later
        · exact known _ here recorded
        · exact done entry later

omit [DecidableEq K] in
/-- When nobody edits a file meanwhile, a load that skips the files on record comes to
the state that a load of all files comes to, the calls of listeners included, and every
variable has the value that its file gives it. -/
theorem skipped [ReflBEq V] (returns : env.Returns)
    (reached : Reach (Initial env) (StepWhen (State.step env) (Permits env)) s)
    (idle : s.loader = .idle) :
    ∃ after full part, after.loader = .idle ∧
      exec (State.step env) s (.load true :: List.replicate full .turn) = some after ∧
      exec (State.step env) s (.load false :: List.replicate part .turn) = some after ∧
      ∀ entry ∈ s.disk, after.s_file2modifytime entry.1 = entry.2.st_mtime ∧
        Settled env after.value (env.calls entry.2) := by
  have inv := Inv.run returns reached
  obtain ⟨after, final, same, turns, -, done⟩ :=
    turns_files returns s (inv.goes fun j other inside applied => by
      rw [Applied, idle] at applied
      exact applied) s.disk fun _ => id
  have loads (force : Bool) : ∃ n, exec (State.step env) s
      (.load force :: List.replicate n .turn) = some (after.go .idle) := by
    obtain ⟨n, ran⟩ := turns force
    refine ⟨n, ?_⟩
    rw [exec, State.step, idle]
    exact ran
  obtain ⟨full, forced⟩ := loads true
  obtain ⟨part, skipping⟩ := loads false
  refine ⟨after.go .idle, full, part, rfl, forced, skipping, ?_⟩
  intro entry inside
  have recorded := done entry inside
  refine ⟨recorded, final.current entry.1 entry.2 ?_ recorded⟩
  change entry ∈ after.disk
  rw [same]
  exact inside

end State

section Witness

/-- One variable, `tcp.port`. -/
def portEnv : Env Unit String where
  yaml := .plain
  s_datas := (lookup (fun _ => none) "tcp.port" () "").2
  fromStr _ val := if val.isEmpty then none else some val
  cbs _ _ _ := none

def portDisk (edited : Bool) : List (String × File) :=
  [("log.yml", ⟨7, none⟩),
    ("tcp.yml", ⟨if edited then 9 else 8, some (.ofFields [("tcp",
      .ofFields [("port", .scalar (if edited then "81" else "80"))])])⟩)]

def started : State String where
  disk := portDisk false
  loader := .idle
  s_file2modifytime _ := 0
  value _ := ""
  told := []

theorem portDisk_once (edited : Bool) : portEnv.Once (portDisk edited) := by
  cases edited with
  | false => exact ⟨by decide, by decide⟩
  | true => exact ⟨by decide, by decide⟩

theorem started_initial : started.Initial portEnv where
  once := portDisk_once false
  loader := rfl
  s_file2modifytime _ := rfl
  written := by decide

theorem reach_turns {s next : State String} {turns : Nat}
    (reached : Reach (State.Initial portEnv)
      (StepWhen (State.step portEnv) (State.Permits portEnv)) s)
    (ran : exec (State.step portEnv) s (List.replicate turns .turn) = some next) :
    Reach (State.Initial portEnv)
      (StepWhen (State.step portEnv) (State.Permits portEnv)) next := by
  induction turns generalizing s with
  | zero =>
      cases ran
      exact reached
  | succ turns ih =>
      obtain ⟨between, taken, rest⟩ := Option.bind_eq_some_iff.mp ran
      have permits : s.Permits portEnv .turn := trivial
      exact ih (.step s .turn between reached ⟨permits, taken⟩) rest

/-- The second load reads the one file that has changed. -/
theorem skipped_port :
    ∃ s, exec (State.step portEnv) started
        (.load true :: List.replicate 9 .turn ++ [.edit (portDisk true)]) = some s ∧
      ∃ after part, after.loader = .idle ∧
        exec (State.step portEnv) s (.load false :: List.replicate part .turn) =
          some after ∧
        after.value "tcp.port" = "81" := by
  obtain ⟨s, ran, idle, disk, time⟩ : ∃ s, exec (State.step portEnv) started
      (.load true :: List.replicate 9 .turn) = some s ∧ s.loader = .idle ∧
        s.disk = portDisk false ∧ s.s_file2modifytime "tcp.yml" = 8 :=
    ⟨_, rfl, rfl, rfl, rfl⟩
  have loads : started.Permits portEnv (.load true) := trivial
  have loaded := reach_turns (.step started (.load true) _
    (.start started started_initial) ⟨loads, rfl⟩) ran
  have permits : s.Permits portEnv (.edit (portDisk true)) := by
    refine ⟨portDisk_once true, fun entry member => ?_⟩
    rcases List.mem_cons.mp member with rfl | last
    · rw [disk]
      exact .inl List.mem_cons_self
    · cases List.mem_singleton.mp last
      rw [time]
      exact .inr (by decide)
  have reached := Reach.step s (.edit (portDisk true)) _ loaded ⟨permits, rfl⟩
  obtain ⟨after, full, part, rest, -, again, settled⟩ :=
    State.skipped (fun _ _ _ => rfl) reached idle
  obtain ⟨-, values⟩ := settled _ (List.mem_of_getLast? rfl)
  refine ⟨{ s with disk := portDisk true }, ?_, after, part, rest, again, ?_⟩
  · rw [exec_append, ran]
    rfl
  · exact (eq_of_beq (values ("tcp.port", "81") List.mem_cons_self "81" rfl)).symm

end Witness

end Sylar.ConfDir
