import Mathlib.Logic.Function.Basic

namespace Sylar.Logic

/-! An event that several parties may try to complete and one does. It is
listed in a registry until a party takes it out. Every party that has taken it
claims it, and the claimant that finds the token present takes the token and
completes the event, once. -/

inductive Claim
  | none
  | pending
  | won
  deriving DecidableEq, Repr

structure Completion (A : Type) where
  started : Bool
  listed : Bool
  token : Bool
  count : Nat
  claim : A → Claim

namespace Completion

variable {c d : Completion A}

inductive Step [DecidableEq A] : Completion A → Completion A → Prop
  | silent (c : Completion A) : Step c c
  | start (c : Completion A) (fresh : c.started = false) :
      Step c { c with started := true, listed := true, token := true }
  /-- A party claims the event, from the registry or from another source. -/
  | take (c : Completion A) (party : A) (listed : Bool)
      (started : c.started = true) (free : c.claim party = .none)
      (kept : listed = true → c.listed = true) :
      Step c { c with
        listed := listed
        claim := Function.update c.claim party .pending }
  | unlist (c : Completion A) (party : A) (pending : c.claim party = .pending) :
      Step c { c with listed := false }
  /-- A claimant that finds the token gone gives up; it may still have another
  claim to come. -/
  | drop (c : Completion A) (party : A) (rest : Claim)
      (pending : c.claim party = .pending) (absent : c.token = false)
      (lost : rest ≠ .won) :
      Step c { c with claim := Function.update c.claim party rest }
  | win (c : Completion A) (party : A) (pending : c.claim party = .pending)
      (present : c.token = true) :
      Step c { c with
        token := false
        claim := Function.update c.claim party .won }
  | fire (c : Completion A) (party : A) (rest : Claim)
      (won : c.claim party = .won) (lost : rest ≠ .won) :
      Step c { c with
        count := c.count + 1
        claim := Function.update c.claim party rest }

/-- What holds of every completion: while the token is there nobody has won,
and afterwards either the event has completed once or one party is about to
complete it. -/
structure Sound (c : Completion A) : Prop where
  unstarted : c.started = false →
    c.listed = false ∧ c.token = false ∧ c.count = 0 ∧ ∀ party, c.claim party = .none
  present : c.token = true → c.count = 0 ∧ ∀ party, c.claim party ≠ .won
  spent : c.started = true → c.token = false →
    (c.count = 1 ∧ ∀ party, c.claim party ≠ .won) ∨
      (c.count = 0 ∧ ∃ winner, ∀ party, c.claim party = .won ↔ party = winner)
  owed : c.token = true → c.listed = false → ∃ party, c.claim party = .pending

theorem Sound.of_unstarted (started : c.started = false)
    (listed : c.listed = false) (token : c.token = false) (count : c.count = 0)
    (claim : ∀ party, c.claim party = .none) : Sound c where
  unstarted _ := ⟨listed, token, count, claim⟩
  present present := by rw [token] at present; cases present
  spent yes := by rw [started] at yes; cases yes
  owed present := by rw [token] at present; cases present

theorem Sound.started (sound : Sound c) (party : A)
    (claimed : c.claim party ≠ .none) : c.started = true := by
  cases started : c.started with
  | true => rfl
  | false => exact absurd ((sound.unstarted started).2.2.2 party) claimed

theorem update_won_iff [DecidableEq A] {claim : A → Claim} {party other : A}
    {rest : Claim} (before : claim party ≠ .won) (after : rest ≠ .won) :
    Function.update claim party rest other = .won ↔ claim other = .won := by
  by_cases same : other = party
  · subst same
    simp [before, after]
  · simp [same]

theorem Sound.step [DecidableEq A] (sound : Sound c) (step : Step c d) : Sound d := by
  cases step with
  | silent => exact sound
  | start fresh =>
      obtain ⟨-, -, count, claim⟩ := sound.unstarted fresh
      refine ⟨by simp, ?_, by simp, by simp⟩
      intro _
      refine ⟨count, ?_⟩
      intro party
      simp [claim]
  | take party listed started free kept =>
      have unwon : c.claim party ≠ .won := by simp [free]
      refine ⟨by simp [started], ?_, ?_, ?_⟩
      · intro present
        obtain ⟨count, none⟩ := sound.present present
        refine ⟨count, ?_⟩
        intro other
        simpa [update_won_iff unwon] using none other
      · intro _ absent
        simpa [update_won_iff unwon] using
          sound.spent started absent
      · intro _ _
        exact ⟨party, by simp⟩
  | unlist party pending =>
      have started := sound.started party (by simp [pending])
      exact ⟨by simp [started], sound.present, sound.spent,
        fun _ _ => ⟨party, pending⟩⟩
  | drop party rest pending absent lost =>
      have started := sound.started party (by simp [pending])
      have unwon : c.claim party ≠ .won := by simp [pending]
      refine ⟨by simp [started], by simp [absent], ?_, by simp [absent]⟩
      intro _ _
      simpa [update_won_iff unwon lost] using
        sound.spent started absent
  | win party pending present =>
      have started := sound.started party (by simp [pending])
      obtain ⟨count, none⟩ := sound.present present
      refine ⟨by simp [started], by simp, ?_, by simp⟩
      intro _ _
      refine .inr ⟨count, party, ?_⟩
      intro other
      by_cases same : other = party
      · simp [same]
      · simp [same, none]
  | fire party rest won lost =>
      have started := sound.started party (by simp [won])
      have absent : c.token = false := by
        cases token : c.token with
        | false => rfl
        | true => exact absurd won ((sound.present token).2 party)
      refine ⟨by simp [started], by simp [absent], ?_, by simp [absent]⟩
      intro _ _
      obtain ⟨-, none⟩ | ⟨count, winner, unique⟩ := sound.spent started absent
      · exact absurd won (none party)
      · refine .inl ⟨by simp [count], ?_⟩
        intro other
        by_cases same : other = party
        · simpa [same] using lost
        · simp only [ne_eq, same, not_false_eq_true, Function.update_of_ne]
          intro also
          exact same (((unique other).mp also).trans ((unique party).mp won).symm)

theorem Sound.count_le (sound : Sound c) : c.count ≤ 1 := by
  cases started : c.started with
  | false => simp [(sound.unstarted started).2.2.1]
  | true =>
      cases token : c.token with
      | true => simp [(sound.present token).1]
      | false =>
          obtain ⟨count, -⟩ | ⟨count, -⟩ := sound.spent started token
          · simp [count]
          · simp [count]

theorem Sound.settled (sound : Sound c) (started : c.started = true)
    (listed : c.listed = false) : c.count = 1 ∨ ∃ party, c.claim party ≠ .none := by
  cases token : c.token with
  | true =>
      obtain ⟨party, pending⟩ := sound.owed token listed
      exact .inr ⟨party, by simp [pending]⟩
  | false =>
      obtain ⟨count, -⟩ | ⟨-, winner, unique⟩ := sound.spent started token
      · exact .inl count
      · exact .inr ⟨winner, by simp [(unique winner).mpr rfl]⟩

/-- There is one winner, and none once the event has completed. -/
theorem Sound.winner (sound : Sound c) {party : A} (won : c.claim party = .won) :
    c.count = 0 ∧ c.token = false ∧ ∀ other, c.claim other = .won → other = party := by
  have started := sound.started party (by simp [won])
  cases token : c.token with
  | true => exact absurd won ((sound.present token).2 party)
  | false =>
      obtain ⟨-, none⟩ | ⟨count, winner, unique⟩ := sound.spent started token
      · exact absurd won (none party)
      · refine ⟨count, rfl, ?_⟩
        intro other also
        exact ((unique other).mp also).trans ((unique party).mp won).symm

end Completion

end Sylar.Logic
