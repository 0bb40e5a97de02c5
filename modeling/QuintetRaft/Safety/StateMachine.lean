import QuintetRaft.Safety.Replication
import QuintetRaft.Safety.Simulation

/-!
# State machine safety

Servers hand the same entries to the application in the same order, at whatever moments they do,
in every run of steady steps.
-/

namespace Quintet

open Leadership (History)

/-- Of what two servers have handed over in two clusters one begins the other. -/
def HandedAlike (first second : Cluster) : Prop :=
  ∀ left right, applied (first left).sent <+: applied (second right).sent ∨
    applied (second right).sent <+: applied (first left).sent

/-- A beginning of what was sent hands over a beginning. -/
theorem applied_prefix_of_prefix {first second : List Output} (begins : first <+: second) :
    applied first <+: applied second := by
  obtain ⟨rest, rfl⟩ := begins
  rw [applied_append]
  exact List.prefix_append _ _

variable {config : ClusterConfig} {cluster first second : Cluster}
  {labels : List (ServerId × Event)}

/-- With a history of terms, what is handed over is comparable at one moment. -/
theorem Simulates.handedAlike {history : History ServerId LogEntry}
    (simulates : Simulates config history cluster) : HandedAlike cluster cluster := by
  have committed : ∀ id, history.Committed config.srvList [{}] (history.current id)
      ((cluster id).server.state.entries.take ((cluster id).server.state.lastApplied + 1)) := by
    intro id
    have behind := (simulates.handed id).behind
    exact (simulates.handed id).committed.of_prefix
      (List.take_prefix_take_left (Nat.succ_le_succ behind))
  intro left right
  rw [(simulates.handed left).handed, (simulates.handed right).handed]
  have comparable := (committed left).comparable (committed right) simulates.sound
    sentinel_oldest (by simp)
  exact comparable.imp (fun begins => (begins.drop 1).map _) fun begins => (begins.drop 1).map _

namespace Cluster

/-- Every cluster reached by steady steps has a history of terms. -/
theorem exists_history (steady : Execution.Along (step config) (Steady config) labels init)
    (execution : Execution.run (step config) labels init = some cluster) :
    ∃ history, Simulates config history cluster := by
  have preserved := fun before label after
    (invariant : SenderRecord config before ∧ ∃ history, Simulates config history before)
    (taken : step config before label = some after) (steady : Steady config before label after) =>
    show SenderRecord config after ∧ ∃ history, Simulates config history after from by
      obtain ⟨record, history, simulates⟩ := invariant
      obtain ⟨later, -, simulated⟩ := simulates.step record taken steady
      exact ⟨record.step taken (steady.electsSafely record taken), later, simulated⟩
  exact (Execution.invariant_of_along preserved
    ⟨senderRecord_init, _, simulates_init config⟩ steady execution).2

/-- What was handed over is not taken back. -/
theorem applied_prefix (execution : Execution.run (step config) labels first = some second)
    (id : ServerId) : applied (first id).sent <+: applied (second id).sent := by
  have preserved := fun before label after
    (begins : applied (first id).sent <+: applied (before id).sent)
    (taken : step config before label = some after) (_ : True) =>
    show applied (first id).sent <+: applied (after id).sent from by
      obtain ⟨-, -, result, -, rfl⟩ := step_eq_some.mp taken
      by_cases same : id = label.1
      · subst same
        rw [Function.update_self, applied_append]
        exact begins.trans (List.prefix_append _ _)
      · rwa [Function.update_of_ne same]
  exact Execution.invariant_of_along preserved List.prefix_rfl
    (Execution.along_of_forall (fun _ _ _ _ => trivial) labels first) execution

/-- Server 1 hands its command over, tells server 2 that it is committed, and replicates it to
server 3, which has seen no term yet. -/
def firstHandover : List (ServerId × Event) :=
  [(localServer 1, .countReplica (localServer 2)), (localServer 1, .startAppending (localServer 2)),
    (localServer 1, .sendAppendEntries (localServer 2)),
    (localServer 2, .rpcAppendEntries
      { term := 1, leaderId := localServer 1, prevLogIdx := 1, prevLogTerm := 1, commitIdx := 1 }),
    (localServer 1, .startAppending (localServer 3)),
    (localServer 1, .sendAppendEntries (localServer 3)),
    (localServer 3, .rpcAppendEntries
      { commandMessage 1 (localServer 1) with commitIdx := 1 })]

/-- A command of a client of server 3. -/
def rivalCommand : AddLogMessage :=
  { opName := "add", args := "2", prmIdx := 1, srvId := localServer 3 }

/-- Server 3 is elected in term 2 by server 2, and counts it for a command it has not been sent. -/
def rivalHandover : List (ServerId × Event) :=
  [(localServer 3, .timeout), (localServer 3, .transform),
    (localServer 3, .timeout), (localServer 3, .transform),
    (localServer 2, .rpcRequestVote (firstRequest 2 (localServer 3))),
    (localServer 3, .receiveVote (localServer 2) (firstRequest 2 (localServer 3)) (2, true)),
    (localServer 3, .transform), (localServer 3, .startAppending (localServer 2)),
    (localServer 3, .sendAppendEntries (localServer 2)),
    (localServer 3, .rpcAddLog rivalCommand), (localServer 3, .addLogState),
    (localServer 2, .rpcAppendEntries { term := 2, leaderId := localServer 3 }),
    (localServer 3, .receiveAppendReply (localServer 2)
      { term := 2, leaderId := localServer 3 } (2, true)),
    (localServer 3, .countReplica (localServer 2)), (localServer 3, .countReplica (localServer 2))]

end Cluster

namespace ThreadedCluster

open Sections (Act)
open Cluster (SenderRecord firstRequest firstVotes firstElection firstCommand commandMessage
  firstReplication firstCommit firstHandover overcounting rivalCommand rivalHandover)

variable {before after : ThreadedCluster} {labels : List (ServerId × Act Event)}

/-- Nothing begins while a thread of the server is in the middle of its work, and what begins is
done in no term behind what the server has seen. -/
def Steady (config : ClusterConfig) (before : ThreadedCluster) (label : ServerId × Act Event)
    (_ : ThreadedCluster) : Prop :=
  before.Undisturbed label ∧
    before.Starts (fun id node event => node.Steady (config.info id) event) label

instance (config : ClusterConfig) (before : ThreadedCluster) (label : ServerId × Act Event)
    (after : ThreadedCluster) : Decidable (Steady config before label after) :=
  inferInstanceAs (Decidable (_ ∧ _))

/-- Servers that are reached by steady sections look like a cluster with a history of terms. -/
theorem exists_history (steady : Execution.Along (step config) (Steady config) labels init)
    (execution : Execution.run (step config) labels init = some after) :
    ∃ cluster, Shown config after cluster ∧ ∃ history, Simulates config history cluster := by
  have preserved := fun before label after
    (invariant : SenderRecord config before ∧ ∃ history, Simulates config history before)
    (taken : Cluster.step config before label = some after)
    (steady : (before label.1).Steady (config.info label.1) label.2) =>
    show SenderRecord config after ∧ ∃ history, Simulates config history after from by
      obtain ⟨record, history, simulates⟩ := invariant
      obtain ⟨later, -, simulated⟩ := simulates.step record taken steady
      exact ⟨record.step taken (Cluster.Steady.electsSafely steady record taken), later, simulated⟩
  obtain ⟨cluster, shown, -, history⟩ := exists_shown preserved
    ⟨Cluster.senderRecord_init, _, simulates_init config⟩ steady execution
  exact ⟨cluster, shown, history⟩

/-- What was sent is not taken back. -/
theorem sent_begins (execution : Execution.run (step config) labels before = some after)
    (id : ServerId) : (before id).sent <+: (after id).sent := by
  have preserved := fun later label next (begins : (before id).sent <+: (later id).sent)
    (taken : step config later label = some next) =>
    show (before id).sent <+: (next id).sent from by
      obtain ⟨-, process, moved, rfl⟩ := step_eq_some.mp taken
      by_cases same : id = label.1
      · subst same
        rw [Function.update_self]
        exact begins.trans (Sections.Process.sent_begins moved)
      · rwa [Function.update_of_ne same]
  exact Execution.invariant_of_run preserved List.prefix_rfl execution

/-- What has been handed over by servers that look like a cluster with a history. -/
theorem Shown.handedAlike {cluster : Cluster} (shown : Shown config after cluster)
    {history : History ServerId LogEntry} (simulates : Simulates config history cluster)
    (execution : Execution.run (ThreadedCluster.step config) labels before = some after)
    (left right : ServerId) :
    applied (before.nodes left).sent <+: applied (after.nodes right).sent ∨
      applied (after.nodes right).sent <+: applied (before.nodes left).sent := by
  have first :=
    applied_prefix_of_prefix ((sent_begins execution left).trans (shown left).sent_begins)
  have second := applied_prefix_of_prefix (shown right).sent_begins
  rcases simulates.handedAlike left right with begins | begins
  · exact List.prefix_or_prefix_of_prefix (first.trans begins) second
  · exact List.prefix_or_prefix_of_prefix first (second.trans begins)

/-- In a run of steady sections, what any two servers have handed to the application at any two
moments is comparable. -/
theorem handedAlike_of_steady (config : ClusterConfig) {labels : List (ServerId × Act Event)}
    (steady : Execution.Along (step config) (Steady config) labels init) {earlier later : Nat}
    {first second : ThreadedCluster}
    (reached : Execution.run (step config) (labels.take earlier) init = some first)
    (reachedLater : Execution.run (step config) (labels.take later) init = some second) :
    HandedAlike first.nodes second.nodes := by
  intro left right
  rcases Nat.le_total earlier later with ordered | ordered
  · obtain ⟨cluster, shown, history, simulates⟩ := exists_history (steady.take later) reachedLater
    obtain ⟨rest, execution⟩ := Execution.exists_run_of_take_le ordered reached reachedLater
    exact shown.handedAlike simulates execution left right
  · obtain ⟨cluster, shown, history, simulates⟩ := exists_history (steady.take earlier) reached
    obtain ⟨rest, execution⟩ := Execution.exists_run_of_take_le ordered reachedLater reached
    exact (shown.handedAlike simulates execution right left).symm

/-- The command of the client of server 1, up to where all three servers hand it over. -/
def firstRun : List (ServerId × Act Event) :=
  seriallyAt (firstElection ++ firstReplication ++ firstCommit ++ firstHandover)
    [1, 10, 5, 2, 2, 3, 0, 0, 2, 8, 0, 2, 4, 0, 2, 12, 0, 2, 12]

/-- Server 1 hands over a command that it has counted too often, and server 3 another one. -/
def rivalRun : List (ServerId × Act Event) :=
  seriallyAt (firstElection ++ overcounting ++ [(localServer 1, .countReplica (localServer 2))] ++
    rivalHandover)
    [1, 10, 5, 2, 2, 0, 2, 3, 0, 8, 0, 2, 4, 1, 10, 1, 10, 5, 2, 2, 0, 2, 3, 0, 8, 0, 2, 4]

/-- The vote request of server 3 once it holds the first command. -/
def laterRequest : RequestVoteMessage :=
  { term := 2, candidateId := localServer 3, lastLogIdx := 1, lastLogTerm := 1 }

/-- The message of server 3 that carries the first command and its own. -/
def laterMessage (commitIdx : Nat) : AppendEntriesMessage :=
  { term := 2
    leaderId := localServer 3
    logEntries := [Server.logEntry firstCommand 1, Server.logEntry rivalCommand 2]
    commitIdx }

/-- Another command of a client of server 3. -/
def lastCommand : AddLogMessage :=
  { opName := "add", args := "3", prmIdx := 2, srvId := localServer 3 }

/-- The message of server 3 that carries it. -/
def lastMessage (commitIdx : Nat) : AppendEntriesMessage :=
  { term := 2
    leaderId := localServer 3
    prevLogIdx := 2
    prevLogTerm := 2
    logEntries := [Server.logEntry lastCommand 2]
    commitIdx }

/-- Server 1 commits the first command in term 1.  Server 3, which holds it, is elected in term 2,
commits a command of its own with server 2, and sends both to server 1. -/
def succession : List (ServerId × Act Event) :=
  seriallyAt (firstVotes ++
    [(localServer 3, .rpcRequestVote (firstRequest 1 (localServer 1))),
      (localServer 1, .transform)] ++ firstReplication ++ firstCommit ++
    [(localServer 1, .startAppending (localServer 3)),
      (localServer 1, .sendAppendEntries (localServer 3)),
      (localServer 3, .rpcAppendEntries
        { commandMessage 1 (localServer 1) with commitIdx := 1 }),
      (localServer 3, .timeout), (localServer 3, .transform),
      (localServer 2, .rpcRequestVote laterRequest),
      (localServer 3, .receiveVote (localServer 2) laterRequest (2, true)),
      (localServer 3, .transform), (localServer 3, .rpcAddLog rivalCommand),
      (localServer 3, .addLogState), (localServer 3, .startAppending (localServer 2)),
      (localServer 3, .sendAppendEntries (localServer 2)),
      (localServer 2, .rpcAppendEntries (laterMessage 1)),
      (localServer 3, .receiveAppendReply (localServer 2) (laterMessage 1) (2, true)),
      (localServer 3, .countReplica (localServer 2)),
      (localServer 3, .countReplica (localServer 2)),
      (localServer 3, .countReplica (localServer 2)),
      (localServer 3, .startAppending (localServer 1)),
      (localServer 3, .sendAppendEntries (localServer 1))])
    [1, 10, 5, 2, 5, 2, 3, 0, 0, 2, 8, 0, 2, 0, 2, 12, 1, 10, 5, 2, 2, 3, 0, 0, 2, 12, 0, 1, 2, 4,
      0, 2]

/-- The handler of server 1 is before step 5 when the counting loop ends and copies the first
command.  Step 5 writes the commit index before the loop writes `lastApplied`. -/
def tornHandover : List (ServerId × Act Event) :=
  sectionsAt (localServer 1)
    [.start (.rpcAppendEntries (laterMessage 2)), .go 0, .go 0, .go 0, .go 0, .go 0,
      .start (.countReplica (localServer 2)), .go 1, .go 1, .go 0, .go 0, .go 1, .go 1, .go 0]

/-- Server 3 commits another command, which server 1 hands over next. -/
def lastHandover : List (ServerId × Act Event) :=
  seriallyAt
    [(localServer 3, .receiveAppendReply (localServer 1) (laterMessage 2) (1, true)),
      (localServer 3, .countReplica (localServer 1)),
      (localServer 3, .countReplica (localServer 1)),
      (localServer 3, .countReplica (localServer 1)), (localServer 3, .rpcAddLog lastCommand),
      (localServer 3, .addLogState), (localServer 3, .startAppending (localServer 2)),
      (localServer 3, .sendAppendEntries (localServer 2)),
      (localServer 2, .rpcAppendEntries (lastMessage 2)),
      (localServer 3, .receiveAppendReply (localServer 2) (lastMessage 2) (2, true)),
      (localServer 3, .countReplica (localServer 2)),
      (localServer 3, .countReplica (localServer 2)),
      (localServer 3, .startAppending (localServer 1)),
      (localServer 3, .sendAppendEntries (localServer 1)),
      (localServer 1, .rpcAppendEntries (lastMessage 3))]
    [0, 1, 1, 1, 3, 0, 0, 2, 12, 0, 2, 4, 0, 2, 11]

/-- All three servers hand the command over. -/
theorem handedAlike_first_command :
    ∃ first ∈ Execution.run (step trio) (firstRun.take 52) init,
      ∃ second ∈ Execution.run (step trio) (firstRun.take 100) init,
        applied (first (localServer 1)).sent ≠ [] ∧ applied (second (localServer 3)).sent ≠ [] ∧
          HandedAlike first.nodes second.nodes := by
  have handed : ∃ first ∈ Execution.run (step trio) (firstRun.take 52) init,
      ∃ second ∈ Execution.run (step trio) (firstRun.take 100) init,
        applied (first (localServer 1)).sent ≠ [] ∧
          applied (second (localServer 3)).sent ≠ [] := by
    decide +kernel
  obtain ⟨first, reached, second, reachedLater, some, someLater⟩ := handed
  exact ⟨first, reached, second, reachedLater, some, someLater,
    handedAlike_of_steady trio (by decide +kernel) reached reachedLater⟩

/-- What servers 1 and 3 have handed over is not comparable. -/
theorem not_handedAlike {cluster : Cluster}
    (apart : ¬ (applied (cluster (localServer 1)).sent <+: applied (cluster (localServer 3)).sent ∨
      applied (cluster (localServer 3)).sent <+: applied (cluster (localServer 1)).sent)) :
    ¬ HandedAlike cluster cluster := fun alike => apart (alike (localServer 1) (localServer 3))

/-- Servers 1 and 3 hand different commands over first.  After the torn handover server 1 hands over
the first and the last command only, and everything that begins is steady. -/
theorem handedAlike_counterexample :
    (∃ final ∈ Execution.run (step trio) rivalRun init, ¬ HandedAlike final.nodes final.nodes) ∧
    Execution.Along (step trio) (fun before label _ =>
        before.Starts (fun id node event => node.Steady (trio.info id) event) label)
        (succession ++ tornHandover ++ lastHandover) init ∧
      ∃ final ∈ Execution.run (step trio) (succession ++ tornHandover ++ lastHandover) init,
        ¬ HandedAlike final.nodes final.nodes := by
  refine ⟨?_, by decide +kernel, ?_⟩
  · obtain ⟨final, execution, apart⟩ : ∃ final ∈ Execution.run (step trio) rivalRun init,
        ¬ (applied (final.nodes (localServer 1)).sent <+:
            applied (final.nodes (localServer 3)).sent ∨
          applied (final.nodes (localServer 3)).sent <+:
            applied (final.nodes (localServer 1)).sent) := by
      decide +kernel
    exact ⟨final, execution, not_handedAlike apart⟩
  · obtain ⟨final, execution, apart⟩ : ∃ final ∈ Execution.run (step trio)
        (succession ++ tornHandover ++ lastHandover) init,
        ¬ (applied (final.nodes (localServer 1)).sent <+:
            applied (final.nodes (localServer 3)).sent ∨
          applied (final.nodes (localServer 3)).sent <+:
            applied (final.nodes (localServer 1)).sent) := by
      decide +kernel
    exact ⟨final, execution, not_handedAlike apart⟩

end ThreadedCluster

end Quintet
