import Mathlib.Data.List.Basic

namespace Sylar.Data

/-! Machines that turn one stream into another: a call hands over some input and
some room for output, takes part of the one and fills part of the other. -/

structure Answer (S α : Type) where
  state : S
  rest : List α
  out : List α

/-- `call state input avail finish` is `none` for a call that is refused. -/
structure Transducer (α : Type) where
  S : Type
  init : S
  call : S → List α → Nat → Bool → Option (Answer S α)
  /-- a bound on the output that the input still leads to -/
  left : S → List α → Bool → Nat
  suffix : ∀ {state input avail finish answer},
    call state input avail finish = some answer → answer.rest <:+ input
  fits : ∀ {state input avail finish answer},
    call state input avail finish = some answer → answer.out.length ≤ avail
  bounded : ∀ {state input avail finish answer},
    call state input avail finish = some answer →
    left answer.state answer.rest finish + answer.out.length ≤
      left state input finish

namespace Transducer

/-- What a machine has been fed and has given. The calls that finish come last
and bring no input. -/
inductive Session (z : Transducer α) : List α → List α → Bool → z.S → Prop
  | start : Session z [] [] false z.init
  | call {fed given used input : List α} {ended finish : Bool} {state : z.S}
      {avail : Nat} {answer : Answer z.S α}
      (before : Session z fed given ended state)
      (order : ended = true → finish = true) (idle : finish = true → input = [])
      (answered : z.call state input avail finish = some answer)
      (taken : used ++ answer.rest = input) :
      Session z (fed ++ used) (given ++ answer.out) finish answer.state

/-- The last call has left room. -/
def Ended (z : Transducer α) (source target : List α) : Prop :=
  ∃ given ended state avail answer, Session z source given ended state ∧
    z.call state [] avail true = some answer ∧
    answer.out.length < avail ∧ target = given ++ answer.out

/-- A call that leaves room has taken its input. -/
def Exhausts (z : Transducer α) (source : List α) : Prop :=
  ∀ {fed given input state avail answer}, Session z fed given false state →
    fed ++ input <+: source → z.call state input avail false = some answer →
    answer.out.length < avail → answer.rest = []

/-- Fed the source in any pieces, with any room for each call, the machine refuses
no call and ends with the target. -/
structure Converts (z : Transducer α) (source target : List α) : Prop where
  exhausts : z.Exhausts source
  answers : ∀ {fed given input ended finish state avail},
    Session z fed given ended state → fed ++ input <+: source →
    (ended = true → finish = true) → (finish = true → input = [] ∧ fed = source) →
    0 < avail → ∃ answer, z.call state input avail finish = some answer
  complete : ∀ {given}, z.Ended source given → given = target

/-- One machine undoes the other, whatever the pieces and the room on both
sides. -/
structure Undoes (decoder encoder : Transducer α) : Prop where
  exhausts : ∀ source, encoder.Exhausts source
  converts : ∀ {source target}, encoder.Ended source target →
    decoder.Converts target source

/-! The machine that gives nothing before it is told to finish. -/

section Buffering

variable (code : List α → List α)

/-- `state.2` is what is still to be given. -/
def buffering : Transducer α where
  S := List α × Option (List α)
  init := ([], none)
  call
    | (fed, none), input, avail, finish =>
        if finish then
          some ⟨([], some ((code (fed ++ input)).drop avail)), [],
            (code (fed ++ input)).take avail⟩
        else some ⟨(fed ++ input, none), [], []⟩
    | (_, some out), input, avail, finish =>
        if finish ∧ input.length = 0 then
          some ⟨([], some (out.drop avail)), [], out.take avail⟩
        else none
  left state input finish :=
    if finish then (state.2.getD (code (state.1 ++ input))).length else 0
  suffix := by
    intro state input avail finish answer answered
    split at answered
    · split at answered
      · cases answered
        exact List.nil_suffix
      · cases answered
        exact List.nil_suffix
    · split at answered
      · cases answered
        exact List.nil_suffix
      · cases answered
  fits := by
    intro state input avail finish answer answered
    split at answered
    · split at answered
      · cases answered
        exact List.length_take_le _ _
      · cases answered
        exact Nat.zero_le _
    · split at answered
      · cases answered
        exact List.length_take_le _ _
      · cases answered
  bounded := by
    intro state input avail finish answer answered
    split at answered
    · split at answered
      · rename_i last
        cases answered
        simp only [last, if_true, Option.getD_some, Option.getD_none,
          List.length_drop, List.length_take]
        omega
      · rename_i more
        cases answered
        rw [if_neg more, if_neg more]
        exact Nat.le_refl 0
    · split at answered
      · rename_i last
        cases answered
        rw [if_pos last.1, if_pos last.1, Option.getD_some, Option.getD_some,
          List.length_drop, List.length_take]
        omega
      · cases answered

variable {code} {fed given source target : List α} {ended : Bool}
  {state : (buffering code).S}

/-- Before the end everything is kept; after it what has been given and what is
still to be given make the code. -/
theorem buffering_session (session : Session (buffering code) fed given ended state) :
    (ended = false → state = (fed, none) ∧ given = []) ∧
      (ended = true → ∃ out, state = ([], some out) ∧ given ++ out = code fed) := by
  induction session with
  | start => exact ⟨fun _ => ⟨rfl, rfl⟩, fun ended => absurd ended Bool.false_ne_true⟩
  | @call fed given used input ended finish state avail answer before order idle
      answered taken ih =>
      cases finish with
      | false =>
          cases ended with
          | false =>
              obtain ⟨rfl, rfl⟩ := ih.1 rfl
              cases answered
              rw [List.append_nil] at taken
              subst taken
              exact ⟨fun _ => ⟨rfl, rfl⟩, fun ended => absurd ended Bool.false_ne_true⟩
          | true => exact absurd (order rfl) Bool.false_ne_true
      | true =>
          cases idle rfl
          obtain ⟨rfl, -⟩ := List.append_eq_nil_iff.mp taken
          refine ⟨fun more => absurd more.symm Bool.false_ne_true, fun _ => ?_⟩
          cases ended with
          | false =>
              obtain ⟨rfl, rfl⟩ := ih.1 rfl
              cases answered
              refine ⟨_, rfl, ?_⟩
              simp only [List.nil_append, List.append_nil, List.take_append_drop]
          | true =>
              obtain ⟨out, rfl, whole⟩ := ih.2 rfl
              cases answered
              refine ⟨_, rfl, ?_⟩
              rw [List.append_assoc, List.take_append_drop, List.append_nil, whole]

theorem take_all {out : List α} {avail : Nat} (room : (out.take avail).length < avail) :
    out.take avail = out := by
  rw [List.length_take] at room
  exact List.take_of_length_le (by omega)

theorem buffering_ended (ended : (buffering code).Ended source target) :
    target = code source := by
  obtain ⟨given, ended, state, avail, answer, session, answered, room, rfl⟩ := ended
  cases ended with
  | false =>
      obtain ⟨rfl, rfl⟩ := (buffering_session session).1 rfl
      cases answered
      rw [List.append_nil] at room
      rw [List.append_nil, take_all room, List.nil_append]
  | true =>
      obtain ⟨out, rfl, whole⟩ := (buffering_session session).2 rfl
      cases answered
      rw [take_all room, whole]

theorem buffering_converts (code : List α → List α) (source : List α) :
    (buffering code).Converts source (code source) where
  exhausts := by
    intro fed given input state avail answer session within answered room
    obtain ⟨rfl, rfl⟩ := (buffering_session session).1 rfl
    cases answered
    rfl
  answers := by
    intro fed given input ended finish state avail session within order last room
    cases ended with
    | false =>
        obtain ⟨rfl, rfl⟩ := (buffering_session session).1 rfl
        cases finish with
        | false => exact ⟨_, rfl⟩
        | true => exact ⟨_, rfl⟩
    | true =>
        obtain ⟨out, rfl, whole⟩ := (buffering_session session).2 rfl
        cases order rfl
        cases (last rfl).1
        exact ⟨_, rfl⟩
  complete := buffering_ended

theorem buffering_undoes {decode encode : List α → List α}
    (inverse : Function.LeftInverse decode encode) :
    Undoes (buffering decode) (buffering encode) where
  exhausts source := (buffering_converts encode source).exhausts
  converts := by
    intro source target ended
    have converts := buffering_converts decode (encode source)
    rw [inverse source] at converts
    rwa [buffering_ended ended]

end Buffering

end Transducer

end Sylar.Data
