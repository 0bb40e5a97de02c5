import QuintetRaft.Library.Execution
import QuintetRaft.Library.Logs
import QuintetRaft.Safety.Election

/-!
# Committing by counting replicas

The entries a leader has added itself carry the term it took office in.  They are the only ones the
counting loop may commit, but the loop counts all entries from the start of the log.
-/

namespace Quintet

namespace Server

variable {info : ServerInfo} {srv : Server} {event : Event} {result : Server × List Output}

/-- What a leader has added to its log carries the term it took office in. -/
def OwnsTail (srv : Server) : Prop :=
  srv.identity = .leader → ∀ idx entry, srv.leader.initSize ≤ idx →
    srv.state.entries[idx]? = some entry → entry.term = srv.leader.initTerm

/-- The tail stays the leader's own unless it is rewritten, or extended in another term. -/
theorem OwnsTail.step (owns : srv.OwnsTail) (taken : Server.step info srv event = some result)
    (intact : ¬ srv.RewritesLeader event) (adds : ¬ srv.AddsOtherTerm event) :
    result.1.OwnsTail := by
  intro role idx entry tail present
  by_cases moves : event = .transform
  · subst moves
    obtain ⟨target, term, rest, -, -, rfl⟩ := step_transform.mp taken
    obtain rfl : target = .leader := by simpa [transform_identity] using role
    rw [transform_leader, if_pos rfl] at tail
    have past : idx < srv.state.entries.length := by
      simpa [transform_state] using (List.getElem?_eq_some_iff.mp present).1
    simp only [leaderInit, leave_state] at tail
    omega
  · obtain ⟨sameTerm, sameSize, -⟩ := step_office taken moves
    rw [step_identity taken moves] at role
    rw [sameSize] at tail
    rw [step_entries taken] at present
    rw [sameTerm]
    cases event with
    | rpcAppendEntries msg =>
        have same : srv.entriesAfter (.rpcAppendEntries msg) = srv.state.entries := by
          by_contra rewritten
          exact intact ⟨by simp [Event.appendRequest], role, rewritten⟩
        rw [same] at present
        exact owns role idx entry tail present
    | rpcAddLog msg =>
        have office : srv.leader.initTerm = srv.state.currentTerm := by
          by_contra other
          exact adds ⟨by simp [Event.command], role, other⟩
        simp only [entriesAfter] at present
        split_ifs at present with stored
        · rcases Logs.getElem?_concat present with earlier | ⟨-, rfl⟩
          · exact owns role idx entry tail earlier
          · exact office.symm
        · exact owns role idx entry tail present
    | _ => exact owns role idx entry tail present

end Server

namespace Cluster

variable {config : ClusterConfig} {before after : Cluster} {label : ServerId × Event}

/-- Whenever a counting loop raises the commit index, it raises it to an entry of the current
term. -/
def CommitsOwnTerm (before : Cluster) (label : ServerId × Event) (after : Cluster) : Prop :=
  label.2.counting ≠ none →
    (before label.1).server.state.commitIdx < (after label.1).server.state.commitIdx →
      termAt (after label.1).server.state.entries (after label.1).server.state.commitIdx =
        some (after label.1).server.state.currentTerm

/-- A leader adds commands and commits only in the term it took office in, no other leader rewrites
its log meanwhile, and it commits only what it has added itself. -/
def CommitsOwnTail (config : ClusterConfig) (before : Cluster) (label : ServerId × Event)
    (_ : Cluster) : Prop :=
  ¬ (before label.1).server.RewritesLeader label.2 ∧
    ¬ (before label.1).server.AddsOtherTerm label.2 ∧
    ¬ (before label.1).server.CommitsInherited (config.info label.1) label.2

instance (before : Cluster) (label : ServerId × Event) (after : Cluster) :
    Decidable (CommitsOwnTerm before label after) :=
  inferInstanceAs (Decidable (_ → _))

instance (before : Cluster) (label : ServerId × Event) (after : Cluster) :
    Decidable (CommitsOwnTail config before label after) :=
  inferInstanceAs (Decidable (_ ∧ _))

/-- Every server is tidy and owns the tail of its log. -/
def TailRecord (cluster : Cluster) : Prop :=
  ∀ id, (cluster id).server.Tidy ∧ (cluster id).server.OwnsTail

theorem tailRecord_init : TailRecord init :=
  fun _ => ⟨Server.tidy_init, fun role => by simp [init] at role⟩

theorem TailRecord.step (record : TailRecord before)
    (taken : Cluster.step config before label = some after)
    (own : CommitsOwnTail config before label after) : TailRecord after := by
  refine forall_step taken (fun _ node => node.server.Tidy ∧ node.server.OwnsTail)
    (fun id _ => record id) fun result _ moved => ?_
  obtain ⟨tidy, owns⟩ := record label.1
  exact ⟨tidy.step moved, owns.step moved own.1 own.2.1⟩

theorem TailRecord.commitsOwnTerm (record : TailRecord before)
    (taken : Cluster.step config before label = some after)
    (own : CommitsOwnTail config before label after) : CommitsOwnTerm before label after := by
  obtain ⟨-, -, result, moved, rfl⟩ := step_eq_some.mp taken
  obtain ⟨id, event⟩ := label
  obtain ⟨tidy, owns⟩ := record id
  intro counts raised
  dsimp only at moved
  simp only [Function.update_self] at raised ⊢
  rcases Server.step_commitIdx moved with
    same | ⟨msg, rfl, -⟩ | ⟨target, idx, rfl, commits, higher, reached⟩
  · omega
  · exact absurd rfl counts
  · obtain ⟨node, idx', known, thread, -⟩ := Server.step_countReplica.mp moved
    have role := tidy.role_of_known known
    obtain ⟨office, tail, inside⟩ := not_not.mp fun outside =>
      own.2.2 ⟨target, rfl, idx, commits.1, commits, higher, outside⟩
    rw [reached, Server.step_entries moved, Server.step_currentTerm moved]
    have present := List.getElem?_eq_getElem inside
    have term := owns role idx _ tail present
    simp [termAt, Server.entriesAfter, Server.termAfter, present, term, office]

/-- In a run whose leaders commit only what they have added themselves, in the term they took
office in, counting replicas commits only entries of the leader's current term. -/
theorem commitsOwnTerm_of_commitsOwnTail (config : ClusterConfig)
    {labels : List (ServerId × Event)}
    (own : Execution.Along (step config) (CommitsOwnTail config) labels init) :
    Execution.Along (step config) CommitsOwnTerm labels init := by
  have preserved := fun before label after (record : TailRecord before)
    (taken : step config before label = some after)
    (own : CommitsOwnTail config before label after) =>
    And.intro (record.step taken own) (record.commitsOwnTerm taken own)
  exact Execution.along_of_invariant preserved tailRecord_init own

/-- A command of a client of server 1. -/
def firstCommand : AddLogMessage :=
  { opName := "add", args := "1", prmIdx := 1, srvId := localServer 1 }

/-- The message of a leader that carries the command, stored in term 1, after the sentinel. -/
def commandMessage (term : Nat) (leaderId : ServerId) : AppendEntriesMessage :=
  { term, leaderId, logEntries := [Server.logEntry firstCommand 1] }

/-- Server 1 stores the command and replicates it to server 2. -/
def firstReplication : List (ServerId × Event) :=
  [(localServer 1, .rpcAddLog firstCommand), (localServer 1, .addLogState),
    (localServer 1, .startAppending (localServer 2)),
    (localServer 1, .sendAppendEntries (localServer 2)),
    (localServer 2, .rpcAppendEntries (commandMessage 1 (localServer 1)))]

/-- Server 1 counts the replica of server 2. -/
def firstCommit : List (ServerId × Event) :=
  [(localServer 1,
      .receiveAppendReply (localServer 2) (commandMessage 1 (localServer 1)) (1, true)),
    (localServer 1, .countReplica (localServer 2))]

/-- The vote request of server 2 once it holds the command. -/
def successorRequest : RequestVoteMessage :=
  { term := 2, candidateId := localServer 2, lastLogIdx := 1, lastLogTerm := 1 }

/-- Server 2 takes office in term 2, replicates the command to server 3 and counts it. -/
def inheritedCommit : List (ServerId × Event) :=
  [(localServer 2, .timeout), (localServer 2, .transform),
    (localServer 3, .rpcRequestVote successorRequest),
    (localServer 2, .receiveVote (localServer 3) successorRequest (2, true)),
    (localServer 2, .transform), (localServer 2, .startAppending (localServer 3)),
    (localServer 2, .sendAppendEntries (localServer 3)),
    (localServer 3, .rpcAppendEntries (commandMessage 2 (localServer 2))),
    (localServer 2,
      .receiveAppendReply (localServer 3) (commandMessage 2 (localServer 2)) (2, true)),
    (localServer 2, .countReplica (localServer 3))]

/-- A leader commits the command it has added. -/
theorem commitsOwnTerm_first_commit :
    (Execution.run (step trio) (firstElection ++ firstReplication ++ firstCommit) init).isSome ∧
      Execution.Along (step trio) CommitsOwnTerm
        (firstElection ++ firstReplication ++ firstCommit) init :=
  ⟨by decide +kernel, commitsOwnTerm_of_commitsOwnTail trio (by decide +kernel)⟩

/-- The leader of term 2 commits the command of term 1. -/
theorem commitsOwnTerm_counterexample :
    (Execution.run (step trio) (firstElection ++ firstReplication ++ inheritedCommit) init).isSome ∧
      ¬ Execution.Along (step trio) CommitsOwnTerm
        (firstElection ++ firstReplication ++ inheritedCommit) init := by
  decide +kernel

end Cluster

end Quintet
