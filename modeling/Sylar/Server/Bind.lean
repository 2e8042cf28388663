import Mathlib.Data.List.Basic

namespace Sylar

/-! `TcpServer::bind` and the loop of `run` around it. -/

/-- An address, the socket created for it, and what its `bind` and `listen`
return. -/
structure Attempt (A S : Type) where
  addr : A
  sock : S
  bind : Bool
  listen : Bool

structure TcpServer (S : Type) where
  socks : List S
  ssl : Bool

variable {A S : Type}

namespace Attempt

def succeeds (attempt : Attempt A S) : Bool := attempt.bind && attempt.listen

def failed (attempts : List (Attempt A S)) : List A :=
  (attempts.filter fun attempt => !attempt.succeeds).map addr

end Attempt

namespace TcpServer

/-- The loop over the addresses; `fails` and `m_socks` grow. -/
def bindLoop : List A → List S → List (Attempt A S) → List A × List S
  | fails, socks, [] => (fails, socks)
  | fails, socks, attempt :: rest =>
      if !attempt.bind then bindLoop (fails ++ [attempt.addr]) socks rest
      else if !attempt.listen then bindLoop (fails ++ [attempt.addr]) socks rest
      else bindLoop fails (socks ++ [attempt.sock]) rest

/-- The answer, `fails` and the server afterwards. -/
def bind (server : TcpServer S) (attempts : List (Attempt A S)) (fails : List A)
    (ssl : Bool) : Bool × List A × TcpServer S :=
  let (fails, socks) := bindLoop fails server.socks attempts
  if !fails.isEmpty then (false, fails, ⟨[], ssl⟩)
  else (true, fails, ⟨socks, ssl⟩)

/-- `run` binds the same addresses, into the same `fails`, until `bind` answers
true; `none` when the given rounds did not suffice. -/
def run (server : TcpServer S) (fails : List A) :
    List (List (Attempt A S)) → Option (TcpServer S)
  | [] => none
  | attempts :: rounds =>
      match server.bind attempts fails false with
      | (true, _, server) => some server
      | (false, fails, server) => server.run fails rounds

/-- `bind` answers whether every address succeeded, and then has added their
sockets; else it has added the addresses that failed, and no sockets. -/
structure Binds (server : TcpServer S) (attempts : List (Attempt A S))
    (fails : List A) (ssl : Bool) : Prop where
  answer : (server.bind attempts fails ssl).1 = true ↔
    ∀ attempt ∈ attempts, attempt.succeeds = true
  bound : (server.bind attempts fails ssl).1 = true →
    (server.bind attempts fails ssl).2.2.socks =
      server.socks ++ attempts.map Attempt.sock
  failed : (server.bind attempts fails ssl).1 = false →
    (server.bind attempts fails ssl).2.1 = fails ++ Attempt.failed attempts ∧
      (server.bind attempts fails ssl).2.2.socks = server.socks

variable {server : TcpServer S} {attempts : List (Attempt A S)} {fails : List A}
  {ssl : Bool}

theorem failed_nil_iff :
    Attempt.failed attempts = [] ↔
      ∀ attempt ∈ attempts, attempt.succeeds = true := by
  simp [Attempt.failed]

theorem bindLoop_spec (fails : List A) (socks : List S)
    (attempts : List (Attempt A S)) :
    bindLoop fails socks attempts =
      (fails ++ Attempt.failed attempts,
        socks ++ (attempts.filter Attempt.succeeds).map Attempt.sock) := by
  induction attempts generalizing fails socks with
  | nil => simp [bindLoop, Attempt.failed]
  | cons attempt rest ih =>
      unfold bindLoop
      cases bound : attempt.bind with
      | false =>
          have fails : attempt.succeeds = false := by simp [Attempt.succeeds, bound]
          simp [ih, Attempt.failed, fails]
      | true =>
          cases listening : attempt.listen with
          | false =>
              have fails : attempt.succeeds = false := by
                simp [Attempt.succeeds, listening]
              simp [ih, Attempt.failed, fails]
          | true =>
              have works : attempt.succeeds = true := by
                simp [Attempt.succeeds, bound, listening]
              simp [ih, Attempt.failed, works]

theorem bind_of_succeed (all : ∀ attempt ∈ attempts, attempt.succeeds = true) :
    server.bind attempts [] ssl =
      (true, [], ⟨server.socks ++ attempts.map Attempt.sock, ssl⟩) := by
  have every : attempts.filter Attempt.succeeds = attempts :=
    List.filter_eq_self.mpr all
  simp [bind, bindLoop_spec, failed_nil_iff.mpr all, every]

theorem bind_of_failed (some : fails ++ Attempt.failed attempts ≠ []) :
    server.bind attempts fails ssl =
      (false, fails ++ Attempt.failed attempts, ⟨[], ssl⟩) := by
  simp only [bind, bindLoop_spec]
  rw [if_pos (by simpa using some)]

/-- What `fails` had before is taken for a failure of this call, and what `m_socks`
had before for sockets of this call. -/
theorem binds_iff (server : TcpServer S) (attempts : List (Attempt A S))
    (fails : List A) (ssl : Bool) :
    server.Binds attempts fails ssl ↔
      ((∀ attempt ∈ attempts, attempt.succeeds = true) → fails = []) ∧
      ((∃ attempt ∈ attempts, attempt.succeeds = false) → server.socks = []) := by
  by_cases all : ∀ attempt ∈ attempts, attempt.succeeds = true
  · have none : ¬∃ attempt ∈ attempts, attempt.succeeds = false := by
      simpa using all
    constructor
    · intro binds
      refine ⟨fun _ => ?_, fun some => absurd some none⟩
      by_contra before
      have answered := binds.answer.mpr all
      rw [bind_of_failed (by simp [before])] at answered
      cases answered
    · rintro ⟨empty, -⟩
      obtain rfl := empty all
      have result := @bind_of_succeed _ _ server attempts ssl all
      refine ⟨?_, ?_, ?_⟩
      · rw [result]
        simpa using all
      · rw [result]
        exact fun _ => rfl
      · rw [result]
        exact fun answered => absurd answered.symm Bool.false_ne_true
  · have some : ∃ attempt ∈ attempts, attempt.succeeds = false := by
      simpa using all
    have result := @bind_of_failed _ _ server attempts fails ssl (by
      simp only [ne_eq, List.append_eq_nil_iff, failed_nil_iff]
      exact fun none => all none.2)
    constructor
    · intro binds
      refine ⟨fun succeed => absurd succeed all, fun _ => ?_⟩
      have kept := (binds.failed (by rw [result])).2
      rw [result] at kept
      exact kept.symm
    · rintro ⟨-, empty⟩
      refine ⟨?_, ?_, ?_⟩
      · rw [result]
        simpa using all
      · rw [result]
        exact fun answered => absurd answered Bool.false_ne_true
      · rw [result, empty some]
        exact fun _ => ⟨rfl, rfl⟩

/-- One of two addresses does not listen, after one that had failed before. -/
theorem binds_second :
    Binds (⟨[], false⟩ : TcpServer Nat)
      [⟨"127.0.0.1:80", 0, true, true⟩, ⟨"127.0.0.1:81", 1, true, false⟩]
      ["0.0.0.0:80"] false :=
  (binds_iff _ _ _ _).mpr ⟨by decide, fun _ => rfl⟩

/-- The second try of `run` binds its address and answers false; and a call that
fails drops the socket of an earlier one. -/
theorem binds_not :
    ¬Binds (⟨[], false⟩ : TcpServer Nat)
      [⟨"192.168.56.1:1234", 0, true, true⟩] ["192.168.56.1:1234"] false ∧
    ¬Binds (⟨[0], false⟩ : TcpServer Nat)
      [⟨"192.168.56.1:1234", 1, false, true⟩] [] false := by
  constructor
  · intro binds
    have answered := binds.answer.mpr (by decide)
    cases answered
  · intro binds
    have kept := (binds.failed (by decide)).2
    cases kept

/-- After a failure `run` never leaves its loop. -/
theorem run_stuck (before : fails ≠ []) (server : TcpServer S)
    (rounds : List (List (Attempt A S))) : server.run fails rounds = none := by
  induction rounds generalizing server fails with
  | nil => rfl
  | cons attempts rounds ih =>
      have more : fails ++ Attempt.failed attempts ≠ [] := by simp [before]
      unfold run
      rw [bind_of_failed more]
      exact ih more _

end TcpServer

end Sylar
