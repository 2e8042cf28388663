import Sylar.Data.Grouped
import Sylar.Data.Text

namespace Sylar

open Data

/-! The command line that `Env::init` reads. -/

structure Env where
  m_args : Table Text Text
  m_program : Text
  m_exe : Text
  m_cwd : Text

def PATH_SEPARATOR : Char := '\\'

namespace Env

/-- `substr(0, find_last_of(PATH_SEPARATOR))`, all of it where there is none. -/
def directory (path : Text) : Text :=
  if PATH_SEPARATOR ∈ path then
    ((path.reverse.dropWhile (· ≠ PATH_SEPARATOR)).drop 1).reverse
  else path

def add (env : Env) (key val : Text) : Env :=
  { env with m_args := env.m_args.insert key val }

/-- What becomes of a key that no value follows. -/
def flush (env : Env) : Option Text → Env
  | none => env
  | some now_key => env.add now_key []

/-- The loop over the arguments and what stands behind it. -/
def parse : Env → Option Text → List Text → Env × Bool
  | env, now_key, [] => (env.flush now_key, true)
  | env, now_key, arg :: rest =>
      if arg.head? = some '-' then
        if arg.length > 1 then
          parse (env.flush now_key) (some arg.tail) rest
        else (env, false)
      else
        match now_key with
        | some key => parse (env.add key arg) none rest
        | none => (env, false)

/-- `path` is what `GetModuleFileNameA` finds, `program` is `argv[0]`. -/
def init (env : Env) (path program : Text) (args : List Text) : Env × Bool :=
  let env := { env with
    m_exe := path
    m_cwd := directory path ++ [PATH_SEPARATOR]
    m_program := program }
  env.parse none args

/-- The command line as options with the values they are given. -/
inductive Options : List Text → List (Text × Text) → Prop
  | nil : Options [] []
  | flag {name : Text} {args : List Text} {options : List (Text × Text)}
      (named : name ≠ []) (rest : Options args options) :
      Options (('-' :: name) :: args) ((name, []) :: options)
  | value {name val : Text} {args : List Text} {options : List (Text × Text)}
      (named : name ≠ []) (plain : val.head? ≠ some '-')
      (rest : Options args options) :
      Options (('-' :: name) :: val :: args) ((name, val) :: options)

def addAll (env : Env) (options : List (Text × Text)) : Env :=
  options.foldl (fun env option => env.add option.1 option.2) env

theorem lookup_addAll (env : Env) (options : List (Text × Text)) (name : Text) :
    (env.addAll options).m_args.lookup name =
      (options.reverse.lookup name).or (env.m_args.lookup name) := by
  induction options generalizing env with
  | nil => rfl
  | cons option options ih =>
      obtain ⟨key, val⟩ := option
      have first : (env.add key val).m_args.lookup name =
          ([(key, val)].lookup name).or (env.m_args.lookup name) := by
        by_cases same : name = key
        · subst same
          simp [add]
        · simp [add, same]
      rw [List.reverse_cons, List.lookup_append, Option.or_assoc, ← first]
      exact ih (env.add key val)

theorem parse_option (env : Env) (now_key : Option Text) {name : Text}
    (named : name ≠ []) (rest : List Text) :
    env.parse now_key (('-' :: name) :: rest) =
      (env.flush now_key).parse (some name) rest := by
  simp [parse, List.length_pos_iff.mpr named]

/-- What begins with an option, or not at all, leaves a key without a value. -/
theorem parse_flush (env : Env) (key : Text) {args : List Text}
    {options : List (Text × Text)} (read : Options args options) :
    env.parse (some key) args = (env.add key []).parse none args := by
  cases read with
  | nil => rfl
  | flag named => rw [parse_option _ _ named, parse_option _ _ named]; rfl
  | value named => rw [parse_option _ _ named, parse_option _ _ named]; rfl

theorem parse_options (env : Env) {args : List Text}
    {options : List (Text × Text)} (read : Options args options) :
    env.parse none args = (env.addAll options, true) := by
  induction read generalizing env with
  | nil => rfl
  | @flag name args options named rest ih =>
      calc env.parse none (('-' :: name) :: args)
          = env.parse (some name) args := parse_option env none named args
        _ = (env.add name []).parse none args := parse_flush env name rest
        _ = ((env.add name []).addAll options, true) := ih _
  | @value name val args options named plain rest ih =>
      calc env.parse none (('-' :: name) :: val :: args)
          = env.parse (some name) (val :: args) := parse_option env none named _
        _ = (env.add name val).parse none args := by rw [parse, if_neg plain]
        _ = ((env.add name val).addAll options, true) := ih _

/-- The arguments as they were before the key was taken from them. -/
def unread : Option Text → List Text → List Text
  | none, args => args
  | some now_key, args => ('-' :: now_key) :: args

theorem parse_sound {env : Env} {now_key : Option Text} {args : List Text}
    (named : ∀ key ∈ now_key, key ≠ [])
    (accepted : (env.parse now_key args).2 = true) :
    ∃ options, Options (unread now_key args) options := by
  induction args generalizing env now_key with
  | nil =>
      cases now_key with
      | none => exact ⟨[], .nil⟩
      | some key => exact ⟨_, .flag (named key rfl) .nil⟩
  | cons arg rest ih =>
      unfold parse at accepted
      split at accepted
      · rename_i dash
        obtain ⟨name, rfl⟩ := List.head?_eq_some_iff.mp dash
        split at accepted
        · rename_i long
          have present : name ≠ [] := by
            rintro rfl
            exact Nat.lt_irrefl _ long
          obtain ⟨options, read⟩ := ih (by simpa using present) accepted
          cases now_key with
          | none => exact ⟨options, read⟩
          | some key => exact ⟨_, .flag (named key rfl) read⟩
        · cases accepted
      · rename_i plain
        cases now_key with
        | none => cases accepted
        | some key =>
            obtain ⟨options, read⟩ := ih (by simp) accepted
            exact ⟨_, .value (named key rfl) plain read⟩

/-- The options are accepted and nothing else, and the last value of each counts. -/
theorem init_options (env : Env) (path program : Text) (args : List Text) :
    ((env.init path program args).2 = true ↔ ∃ options, Options args options) ∧
      ∀ options, Options args options → ∀ name,
        (env.init path program args).1.m_args.lookup name =
          (options.reverse.lookup name).or (env.m_args.lookup name) := by
  refine ⟨⟨parse_sound (by simp), ?_⟩, ?_⟩
  · rintro ⟨options, read⟩
    rw [init, parse_options _ read]
  · intro options read name
    rw [init, parse_options _ read]
    exact lookup_addAll _ options name

example :
    let env : Env := ⟨∅, [], [], []⟩
    let args := ["-c", "conf", "-d", "-c", "bin"].map String.toList
    (env.init [] [] args).1.m_args.lookup ['c'] = some "bin".toList := by
  decide

end Env

end Sylar
