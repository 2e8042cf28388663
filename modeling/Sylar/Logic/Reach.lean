namespace Sylar.Logic

/-! Runs of a labelled step relation from an initial condition. -/

inductive Reach (init : σ → Prop) (step : σ → α → σ → Prop) : σ → Prop
  | start (state : σ) (initial : init state) : Reach init step state
  | step (state : σ) (label : α) (next : σ)
      (reached : Reach init step state) (taken : step state label next) :
      Reach init step next

namespace Reach

/-- The induction rule for safety: what holds at the start and is preserved by
every step holds in every state reached. -/
theorem invariant {init : σ → Prop} {step : σ → α → σ → Prop}
    {property : σ → Prop}
    (initially : ∀ state, init state → property state)
    (preserved : ∀ state label next, property state →
      step state label next → property next)
    {state : σ} (reached : Reach init step state) : property state := by
  induction reached with
  | start state initial => exact initially state initial
  | step state label next _ taken holds =>
      exact preserved state label next holds taken

theorem mono {init : σ → Prop} {step more : σ → α → σ → Prop}
    (weaker : ∀ state label next, step state label next →
      more state label next)
    {state : σ} (reached : Reach init step state) : Reach init more state := by
  induction reached with
  | start state initial => exact .start state initial
  | step state label next _ taken ih =>
      exact .step state label next ih (weaker state label next taken)

end Reach

/-- The steps of a deterministic transition function whose source state and
label meet a condition. -/
def StepWhen (transition : σ → α → Option σ) (condition : σ → α → Prop)
    (state : σ) (label : α) (next : σ) : Prop :=
  condition state label ∧ transition state label = some next

/-- All the steps of a transition function. -/
def StepOf (transition : σ → α → Option σ)
    (state : σ) (label : α) (next : σ) : Prop :=
  transition state label = some next

theorem Reach.all {init : σ → Prop} {transition : σ → α → Option σ}
    {condition : σ → α → Prop} {state : σ}
    (reached : Reach init (StepWhen transition condition) state) :
    Reach init (StepOf transition) state :=
  reached.mono fun _ _ _ taken => taken.2

/-- Run a transition function along a list of labels. -/
def exec (transition : σ → α → Option σ) : σ → List α → Option σ
  | state, [] => some state
  | state, label :: labels =>
      (transition state label).bind fun next => exec transition next labels

theorem exec_append (transition : σ → α → Option σ) (state : σ)
    (labels more : List α) :
    exec transition state (labels ++ more) =
      (exec transition state labels).bind fun next => exec transition next more := by
  induction labels generalizing state with
  | nil => rfl
  | cons label labels ih =>
      rw [List.cons_append, exec, exec, Option.bind_assoc]
      exact congrArg _ (funext ih)

theorem reach_exec {init : σ → Prop} {transition : σ → α → Option σ} :
    ∀ {labels : List α} {state final : σ},
      Reach init (StepOf transition) state →
      exec transition state labels = some final →
      Reach init (StepOf transition) final
  | [], state, final, reached, ran => by
      cases ran
      exact reached
  | label :: labels, state, final, reached, ran => by
      obtain ⟨next, taken, rest⟩ := Option.bind_eq_some_iff.mp ran
      exact reach_exec (.step state label next reached taken) rest

/-- The transition function restricted to the steps that meet a condition. -/
def guarded (transition : σ → α → Option σ) (condition : σ → α → Prop)
    [∀ state label, Decidable (condition state label)] (state : σ)
    (label : α) : Option σ :=
  if condition state label then transition state label else none

theorem reach_guarded {init : σ → Prop} {transition : σ → α → Option σ}
    {condition : σ → α → Prop} [∀ state label, Decidable (condition state label)] :
    ∀ {labels : List α} {state final : σ},
      Reach init (StepWhen transition condition) state →
      exec (guarded transition condition) state labels = some final →
      Reach init (StepWhen transition condition) final
  | [], state, final, reached, ran => by
      cases ran
      exact reached
  | label :: labels, state, final, reached, ran => by
      obtain ⟨next, taken, rest⟩ := Option.bind_eq_some_iff.mp ran
      unfold guarded at taken
      split at taken
      · rename_i allowed
        exact reach_guarded (.step state label next reached ⟨allowed, taken⟩)
          rest
      · cases taken

end Sylar.Logic
