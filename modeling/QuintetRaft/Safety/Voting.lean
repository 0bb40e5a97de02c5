import QuintetRaft.Library.Execution
import QuintetRaft.Model.Hazards
import QuintetRaft.Safety.Sections

/-!
# One vote per term

The votes of a server are read off everything it has sent: positive answers to vote requests, and
its own candidacies.  As long as the term is not lowered, the last vote is remembered by
`votedFor` until the term grows.
-/

namespace Quintet

/-- An output of `self` that votes for a candidate in a term. -/
def Output.IsVote (self : ServerId) (term : Nat) (candidate : ServerId) : Output → Prop
  | .voteReply msg reply => reply = (term, true) ∧ msg.candidateId = candidate
  | .candidacy opened => opened = term ∧ candidate = self
  | _ => False

instance (self : ServerId) (term : Nat) (candidate : ServerId) :
    (output : Output) → Decidable (output.IsVote self term candidate)
  | .voteReply _ _ | .candidacy _ => inferInstanceAs (Decidable (_ ∧ _))
  | .requestVote _ _ | .appendEntries _ _ | .appendReply _ _ | .addLogReply _ _ | .apply _ =>
      .isFalse id

/-- A server that has sent these outputs has voted for a candidate in a term. -/
def Voted (self : ServerId) (sent : List Output) (term : Nat) (candidate : ServerId) : Prop :=
  ∃ output ∈ sent, output.IsVote self term candidate

instance (self : ServerId) (sent : List Output) (term : Nat) (candidate : ServerId) :
    Decidable (Voted self sent term candidate) :=
  inferInstanceAs (Decidable (∃ _ ∈ _, _))

/-- In every term at most one candidate has the vote of the server. -/
def OneVotePerTerm (self : ServerId) (sent : List Output) : Prop :=
  ∀ term left right, Voted self sent term left → Voted self sent term right → left = right

section Voted

variable {self candidate : ServerId} {sent outputs : List Output} {term : Nat}

theorem voted_append :
    Voted self (sent ++ outputs) term candidate ↔
      Voted self sent term candidate ∨ Voted self outputs term candidate := by
  simp [Voted, or_and_right, exists_or]

theorem Voted.append (voted : Voted self sent term candidate) :
    Voted self (sent ++ outputs) term candidate :=
  voted_append.mpr (.inl voted)

end Voted

namespace Server

variable {info : ServerInfo} {srv : Server} {event : Event} {result : Server × List Output}

/-- The steps on which votes are cast as they should be. -/
def VotesSafely (srv : Server) (event : Event) : Prop :=
  ¬ srv.LowersTerm event ∧ ¬ srv.WrapsTerm event ∧ ¬ NamesNobody event

instance (event : Event) : Decidable (srv.VotesSafely event) :=
  inferInstanceAs (Decidable (_ ∧ _))

/-- A vote cast by a step names a server and is the one recorded after the step. -/
theorem new_vote {candidate : ServerId} {term : Nat} (named : info.localId ≠ nullServerId)
    (taken : step info srv event = some result) (safe : srv.VotesSafely event)
    (voted : Voted info.localId result.2 term candidate) :
    result.1.state.currentTerm = term ∧ result.1.state.votedFor = candidate ∧
      candidate ≠ nullServerId := by
  obtain ⟨output, member, vote⟩ := voted
  have emitted := step_emits taken member
  rw [step_currentTerm taken, step_votedFor taken]
  cases output with
  | voteReply msg reply =>
      obtain ⟨rfl, answer⟩ := emitted
      obtain ⟨rfl, rfl⟩ := vote
      by_cases serving : srv.Serving
      · rw [rpcRequestVote_reply serving] at answer
        obtain ⟨rfl, granted⟩ := Prod.mk.inj answer
        refine ⟨by simp [termAfter, serving], ?_, fun nobody => safe.2.2 ⟨msg, rfl, nobody⟩⟩
        simp [votedForAfter, serving, of_decide_eq_true granted.symm]
      · simp [rpcRequestVote_of_not_serving serving] at answer
  | candidacy opened =>
      obtain ⟨rfl, stands, rfl⟩ := emitted
      obtain ⟨rfl, rfl⟩ := vote
      exact ⟨by simp [termAfter, stands], by simp [votedForAfter, stands], named⟩
  | _ => exact vote.elim

/-- While the term stays the same a recorded vote stays. -/
theorem votedFor_kept (taken : step info srv event = some result) (safe : srv.VotesSafely event)
    (sameTerm : result.1.state.currentTerm = srv.state.currentTerm)
    (recorded : srv.state.votedFor ≠ nullServerId) :
    result.1.state.votedFor = srv.state.votedFor := by
  rw [step_votedFor taken]
  rw [step_currentTerm taken] at sameTerm
  cases event with
  | rpcRequestVote msg =>
      simp only [votedForAfter]
      split_ifs with cast
      · obtain ⟨serving, greater | ⟨free, -⟩⟩ := cast
        · simp only [termAfter, serving, if_true] at sameTerm
          omega
        · exact (free.resolve_left recorded).symm
      · rfl
  | transform =>
      simp only [votedForAfter]
      split_ifs with stands
      · simp only [termAfter, stands, if_true] at sameTerm
        rw [incrementTerm_eq safe.2.1 stands] at sameTerm
        omega
      · rfl
  | _ => rfl

end Server

/-- What a server remembers of the votes it has cast. -/
structure VoteRecord (voter : ServerId) (node : Node) : Prop where
  /-- No vote is ahead of the current term. -/
  bounded : ∀ term candidate, Voted voter node.sent term candidate →
    term ≤ node.server.state.currentTerm
  /-- A vote of the current term is the recorded one. -/
  current : ∀ candidate, Voted voter node.sent node.server.state.currentTerm candidate →
    node.server.state.votedFor = candidate
  /-- Votes are for servers. -/
  named : ∀ term candidate, Voted voter node.sent term candidate → candidate ≠ nullServerId
  /-- No term has two votes. -/
  unique : OneVotePerTerm voter node.sent

theorem voteRecord_init (self : ServerId) : VoteRecord self {} where
  bounded := by simp [Voted]
  current := by simp [Voted]
  named := by simp [Voted]
  unique := by simp [OneVotePerTerm, Voted]

namespace VoteRecord

variable {info : ServerInfo} {node : Node} {event : Event} {result : Server × List Output}

/-- A safe step keeps the record. -/
theorem step (before : VoteRecord info.localId node) (named : info.localId ≠ nullServerId)
    (taken : node.server.step info event = some result) (safe : node.server.VotesSafely event) :
    VoteRecord info.localId { server := result.1, sent := node.sent ++ result.2 } := by
  have mono := Server.step_currentTerm_le taken safe.1 safe.2.1
  have current : ∀ candidate,
      Voted info.localId (node.sent ++ result.2) result.1.state.currentTerm candidate →
        result.1.state.votedFor = candidate := by
    intro candidate voted
    rcases voted_append.mp voted with earlier | cast
    · have sameTerm := Nat.le_antisymm (before.bounded _ _ earlier) mono
      rw [sameTerm] at earlier
      have recorded := before.current _ earlier
      have nonnull := before.named _ _ earlier
      rw [Server.votedFor_kept taken safe sameTerm (recorded ▸ nonnull), recorded]
    · exact (Server.new_vote named taken safe cast).2.1
  refine ⟨?_, current, ?_, ?_⟩
  · intro term candidate voted
    rcases voted_append.mp voted with earlier | cast
    · exact (before.bounded _ _ earlier).trans mono
    · exact (Server.new_vote named taken safe cast).1.ge
  · intro term candidate voted
    rcases voted_append.mp voted with earlier | cast
    · exact before.named _ _ earlier
    · exact (Server.new_vote named taken safe cast).2.2
  · intro term left right leftVote rightVote
    by_cases latest : term = result.1.state.currentTerm
    · subst latest
      rw [← current left leftVote, ← current right rightVote]
    · have old : ∀ candidate, Voted info.localId (node.sent ++ result.2) term candidate →
          Voted info.localId node.sent term candidate := fun candidate voted =>
        (voted_append.mp voted).resolve_right fun cast =>
          latest (Server.new_vote named taken safe cast).1.symm
      exact before.unique _ _ _ (old _ leftVote) (old _ rightVote)

end VoteRecord

namespace ServerProcess

open Sections (Act Process)

/-- Nothing begins while a thread is in the middle of its work, and votes are cast as they should
be. -/
def VotesSafely (before : ServerProcess) (act : Act Event) (_ : ServerProcess) : Prop :=
  before.Undisturbed act ∧ before.Starts (fun srv _ event => srv.VotesSafely event) act

instance (before : ServerProcess) (act : Act Event) (after : ServerProcess) :
    Decidable (VotesSafely before act after) :=
  inferInstanceAs (Decidable (_ ∧ _))

/-- A server whose threads do not disturb each other, and that never lowers a term, never wraps one
and is never asked for a vote by nobody, votes at most once in every term, whatever it receives. -/
theorem oneVotePerTerm (info : ServerInfo) (named : info.localId ≠ nullServerId)
    {acts : List (Act Event)} {final : ServerProcess}
    (safe : Execution.Along (Process.step (Server.sections info)) VotesSafely acts { state := {} })
    (execution : Execution.run (Process.step (Server.sections info)) acts { state := {} } =
      some final) :
    OneVotePerTerm info.localId final.sent := by
  have preserved := fun server sent event after outputs
    (record : VoteRecord info.localId { server, sent }) (safe : server.VotesSafely event)
    (taken : server.step info event = some (after, outputs)) =>
    show VoteRecord info.localId { server := after, sent := sent ++ outputs } from
      record.step named taken safe
  obtain ⟨server, sent, shows, record⟩ := Sections.exists_shows (Server.sections_refines info)
    preserved rfl (voteRecord_init info.localId) safe execution
  intro term left right leftVote rightVote
  have seen : ∀ candidate, Voted info.localId final.sent term candidate →
      Voted info.localId sent term candidate := fun candidate ⟨output, member, vote⟩ =>
    ⟨output, shows.sent_begins.subset member, vote⟩
  exact record.unique term left right (seen left leftVote) (seen right rightVote)

/-- Two candidates of term 1 ask for a vote. -/
def rivalRequests : List (Act Event) :=
  serially [.rpcRequestVote { term := 1, candidateId := localServer 2 },
    .rpcRequestVote { term := 1, candidateId := localServer 3 }] [5, 7]

/-- The second candidate asks in term 2 first, and its request of term 1 is delayed. -/
def delayedRequests : List (Act Event) :=
  serially [.rpcRequestVote { term := 1, candidateId := localServer 2 },
    .rpcRequestVote { term := 2, candidateId := localServer 3 },
    .rpcRequestVote { term := 1, candidateId := localServer 3 }] [5, 5, 7]

/-- The election timer fires, and a candidate of term 1 asks for a vote.  The handler has tested the
term when the server becomes a candidate itself and opens term 1, and grants the vote before the
server votes for itself. -/
def overtakenRequest : List (Act Event) :=
  [.start .timeout, .go 0, .start (.rpcRequestVote { term := 1, candidateId := localServer 2 }),
    .go 0, .go 0, .go 0, .start .transform, .go 1, .go 1, .go 1, .go 0, .go 0, .go 0, .go 0,
    .go 0, .go 0]

/-- A server asked by two candidates of term 1 votes once. -/
theorem oneVotePerTerm_rivals :
    ∃ final ∈ Execution.run (Process.step (Server.sections (trio.info (localServer 1))))
        rivalRequests { state := {} },
      OneVotePerTerm (localServer 1) final.sent := by
  obtain ⟨final, execution⟩ : ∃ final,
      Execution.run (Process.step (Server.sections (trio.info (localServer 1))))
        rivalRequests { state := {} } = some final := ⟨_, rfl⟩
  exact ⟨final, execution, oneVotePerTerm (trio.info (localServer 1)) (by decide) (by decide)
    execution⟩

/-- The delayed request brings the server back to term 1 with the vote it gave in term 2.  The
overtaken request meets everything but that nothing disturbs it. -/
theorem oneVotePerTerm_counterexample :
    (∃ final ∈ Execution.run (Process.step (Server.sections (trio.info (localServer 1))))
        delayedRequests { state := {} },
      ¬ OneVotePerTerm (localServer 1) final.sent) ∧
    Execution.Along (Process.step (Server.sections (trio.info (localServer 1))))
        (fun before act _ => before.Starts (fun srv _ event => srv.VotesSafely event) act)
        overtakenRequest { state := {} } ∧
      ∃ final ∈ Execution.run (Process.step (Server.sections (trio.info (localServer 1))))
          overtakenRequest { state := {} },
        ¬ OneVotePerTerm (localServer 1) final.sent := by
  refine ⟨⟨_, rfl, fun one => ?_⟩, by decide, ⟨_, rfl, fun one => ?_⟩⟩
  · have same := one 1 (localServer 2) (localServer 3) (by decide) (by decide)
    revert same
    decide
  · have same := one 1 (localServer 2) (localServer 1) (by decide) (by decide)
    revert same
    decide

end ServerProcess

end Quintet
