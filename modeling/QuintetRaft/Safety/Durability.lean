import QuintetRaft.Safety.StateMachine

/-!
# Committed entries are durable

In every run of steady steps, logs of any two moments match, and what a server has committed at one
moment is at all later moments in the logs of a majority and in those of the leaders.
-/

namespace Quintet

open Leadership (History Extends)

/-- The part of the log that a server takes to be committed. -/
def Node.committed (node : Node) : List LogEntry :=
  node.server.state.entries.take (node.server.state.commitIdx + 1)

/-- A leader that has seen no term after the one it took office in. -/
def Node.Leads (node : Node) : Prop :=
  node.server.identity = .leader ∧ node.server.leader.initTerm = node.seenTerm

instance (node : Node) : Decidable node.Leads := inferInstanceAs (Decidable (_ ∧ _))

/-- An entry that two logs have at the same index in the same term is preceded by the same entries
in both. -/
def LogsMatch (first second : Cluster) : Prop :=
  ∀ left right, Logs.Matching LogEntry.term (first left).server.state.entries
    (second right).server.state.entries

/-- What was committed at one moment is kept at another. -/
structure Durable (config : ClusterConfig) (first second : Cluster) : Prop where
  /-- The server itself still takes it to be committed. -/
  own : ∀ id, (first id).committed <+: (second id).committed
  /-- A majority has it. -/
  majority : ∀ id ∈ config.srvList, Majority config.srvList fun other =>
    (first id).committed <+: (second other).server.state.entries
  /-- Every leader of a term that the server had not passed has it. -/
  leaders : ∀ id leader, (second leader).Leads → (first id).seenTerm ≤ (second leader).seenTerm →
    (first id).committed <+: (second leader).server.state.entries

variable {config : ClusterConfig} {first second before after : Cluster}
  {label : ServerId × Event} {labels : List (ServerId × Event)}
  {history later : History ServerId LogEntry}

namespace Simulates

/-- A steady step only adds to the history. -/
theorem extends_step (simulates : Simulates config history before)
    (record : Cluster.SenderRecord config before)
    (taken : Cluster.step config before label = some after)
    (steady : Cluster.Steady config before label after) :
    ∃ later, Simulates config later after ∧ Extends history later := by
  obtain ⟨later, run, simulated⟩ := simulates.step record taken steady
  exact ⟨later, simulated, (Leadership.sound_of_run run simulates.sound sentinel_oldest).2⟩

/-- A steady step takes back nothing that a server has committed. -/
theorem committed_step_prefix (simulates : Simulates config history before)
    (record : Cluster.SenderRecord config before)
    (taken : Cluster.step config before label = some after)
    (steady : Cluster.Steady config before label after) (id : ServerId) :
    (before id).committed <+: (after id).committed := by
  obtain ⟨later, simulated, grows⟩ := simulates.extends_step record taken steady
  obtain ⟨listed, delivered, result, moved, rfl⟩ := Cluster.step_eq_some.mp taken
  by_cases same : id = label.1
  · subst same
    have leading := simulated.leading label.1
    have present := simulated.present label.1
    rw [Function.update_self] at leading present ⊢
    have kept := (simulates.committed_prefix delivered moved steady).2
    have raised := (simulates.committed_step record listed delivered moved steady present.term
      simulated.sound grows leading).1
    rw [Node.committed, Node.committed, kept]
    exact List.take_prefix_take_left (Nat.succ_le_succ raised)
  · rw [Function.update_of_ne same]

/-- Logs made of beginnings of the same records match. -/
theorem logsMatch (simulates : Simulates config history first)
    (simulated : Simulates config later second) (grows : Extends history later) :
    LogsMatch first second := by
  intro left right
  rw [← (simulates.present left).log, ← (simulated.present right).log]
  exact (grows.rooted (simulates.sound.rooted left)).matching (simulated.sound.rooted right)

theorem majority_of_committed (simulates : Simulates config history first)
    (simulated : Simulates config later second) (grows : Extends history later) {id : ServerId}
    (listed : id ∈ config.srvList) :
    Majority config.srvList fun other =>
      (first id).committed <+: (second other).server.state.entries := by
  have committed := (simulates.handed id).committed.mono grows (Nat.le_refl _)
  refine (committed.held simulated.sound sentinel_oldest (by simp) config.nodup
    (List.ne_nil_of_mem listed)).mono fun other held => ?_
  rwa [(simulated.present other).log] at held

theorem leaders_of_committed (simulates : Simulates config history first)
    (simulated : Simulates config later second) (grows : Extends history later)
    {id leader : ServerId} (leads : (second leader).Leads)
    (upTo : (first id).seenTerm ≤ (second leader).seenTerm) :
    (first id).committed <+: (second leader).server.state.entries := by
  obtain ⟨role, current⟩ := leads
  have committed := (simulates.handed id).committed.mono grows (Nat.le_refl _)
  have office := (simulated.leading leader).office role
  rw [simulated.log_eq_record role current]
  refine committed.prefix_record simulated.sound sentinel_oldest (by simp) ?_ (by simp [office])
  rw [(simulates.present id).term, current]
  exact upTo

end Simulates

/-- What a run of steady steps has kept of the cluster it started from. -/
structure Continues (config : ClusterConfig) (history : History ServerId LogEntry)
    (first second : Cluster) : Prop where
  /-- Its leaders have been elected. -/
  record : Cluster.SenderRecord config second
  /-- Its history adds to the one before. -/
  grows : ∃ later, Simulates config later second ∧ Extends history later
  /-- Commit indices have not been taken back. -/
  committed : ∀ id, (first id).committed <+: (second id).committed

namespace Continues

theorem refl (record : Cluster.SenderRecord config first)
    (simulates : Simulates config history first) : Continues config history first first where
  record := record
  grows := ⟨history, simulates, Extends.refl history⟩
  committed _ := List.prefix_rfl

theorem step (continues : Continues config history first before)
    (taken : Cluster.step config before label = some after)
    (steady : Cluster.Steady config before label after) :
    Continues config history first after := by
  obtain ⟨reached, simulates, grows⟩ := continues.grows
  obtain ⟨later, simulated, grown⟩ := simulates.extends_step continues.record taken steady
  exact
    { record := continues.record.step taken (steady.electsSafely continues.record taken)
      grows := ⟨later, simulated, grows.trans grown⟩
      committed := fun id => (continues.committed id).trans
        (simulates.committed_step_prefix continues.record taken steady id) }

theorem of_run (continues : Continues config history first before)
    (steady : Execution.Along (Cluster.step config) (Cluster.Steady config) labels before)
    (execution : Execution.run (Cluster.step config) labels before = some second) :
    Continues config history first second :=
  Execution.invariant_of_along (fun _ _ _ kept taken steady => kept.step taken steady) continues
    steady execution

end Continues

namespace Cluster

/-- Of two moments of a run of steady steps the later one continues the history of the earlier. -/
theorem exists_continues (steady : Execution.Along (step config) (Steady config) labels init)
    {earlier later : Nat} (ordered : earlier ≤ later)
    (reached : Execution.run (step config) (labels.take earlier) init = some first)
    (reachedLater : Execution.run (step config) (labels.take later) init = some second) :
    ∃ history, Simulates config history first ∧ Continues config history first second := by
  have start := Continues.refl senderRecord_init (simulates_init config)
  have begun := start.of_run (steady.take earlier) reached
  obtain ⟨history, simulates, -⟩ := begun.grows
  obtain ⟨rest, steadyRest, execution⟩ :=
    Execution.exists_along_of_take_le ordered steady reached reachedLater
  exact ⟨history, simulates, (Continues.refl begun.record simulates).of_run steadyRest execution⟩

/-- In a run of steady steps the logs of any two servers at any two moments match. -/
theorem logsMatch_of_steady (config : ClusterConfig) {labels : List (ServerId × Event)}
    (steady : Execution.Along (step config) (Steady config) labels init) {earlier later : Nat}
    {first second : Cluster}
    (reached : Execution.run (step config) (labels.take earlier) init = some first)
    (reachedLater : Execution.run (step config) (labels.take later) init = some second) :
    LogsMatch first second := by
  rcases Nat.le_total earlier later with ordered | ordered
  · obtain ⟨history, simulates, continues⟩ := exists_continues steady ordered reached reachedLater
    obtain ⟨final, simulated, grows⟩ := continues.grows
    exact simulates.logsMatch simulated grows
  · obtain ⟨history, simulates, continues⟩ := exists_continues steady ordered reachedLater reached
    obtain ⟨final, simulated, grows⟩ := continues.grows
    exact fun left right => (simulates.logsMatch simulated grows right left).symm

/-- In a run of steady steps what a server has committed is never lost, and the leaders from its
term on have it. -/
theorem durable_of_steady (config : ClusterConfig) {labels : List (ServerId × Event)}
    (steady : Execution.Along (step config) (Steady config) labels init) {earlier later : Nat}
    (ordered : earlier ≤ later) {first second : Cluster}
    (reached : Execution.run (step config) (labels.take earlier) init = some first)
    (reachedLater : Execution.run (step config) (labels.take later) init = some second) :
    Durable config first second := by
  obtain ⟨history, simulates, continues⟩ := exists_continues steady ordered reached reachedLater
  obtain ⟨final, simulated, grows⟩ := continues.grows
  exact
    { own := continues.committed
      majority := fun id listed => simulates.majority_of_committed simulated grows listed
      leaders := fun id leader leads upTo =>
        simulates.leaders_of_committed simulated grows leads upTo }

/-- Server 1 commits its command with server 2, which is then elected in term 2 by server 3. -/
def succession : List (ServerId × Event) :=
  firstElection ++ firstReplication ++ firstCommit ++ inheritedCommit.take 5

/-- The logs of servers 1 and 2 at those two moments hold the command of term 1. -/
theorem logsMatch_succession :
    ∃ first ∈ Execution.run (step trio) (succession.take 12) init,
      ∃ second ∈ Execution.run (step trio) (succession.take 17) init,
        1 < (first (localServer 1)).server.state.entries.length ∧
          1 < (second (localServer 2)).server.state.entries.length ∧ LogsMatch first second := by
  have stored : ∃ first ∈ Execution.run (step trio) (succession.take 12) init,
      ∃ second ∈ Execution.run (step trio) (succession.take 17) init,
        1 < (first (localServer 1)).server.state.entries.length ∧
          1 < (second (localServer 2)).server.state.entries.length := by
    decide +kernel
  obtain ⟨first, reached, second, reachedLater, inFirst, inSecond⟩ := stored
  exact ⟨first, reached, second, reachedLater, inFirst, inSecond,
    logsMatch_of_steady trio (by decide +kernel) reached reachedLater⟩

/-- Server 2 leads in the later term. -/
theorem durable_succession :
    ∃ first ∈ Execution.run (step trio) (succession.take 12) init,
      ∃ second ∈ Execution.run (step trio) (succession.take 17) init,
        (first (localServer 1)).server.state.commitIdx = 1 ∧ (second (localServer 2)).Leads ∧
          (first (localServer 1)).seenTerm < (second (localServer 2)).seenTerm ∧
          Durable trio first second := by
  have elected : ∃ first ∈ Execution.run (step trio) (succession.take 12) init,
      ∃ second ∈ Execution.run (step trio) (succession.take 17) init,
        (first (localServer 1)).server.state.commitIdx = 1 ∧ (second (localServer 2)).Leads ∧
          (first (localServer 1)).seenTerm < (second (localServer 2)).seenTerm := by
    decide +kernel
  obtain ⟨first, reached, second, reachedLater, committed, leads, later⟩ := elected
  exact ⟨first, reached, second, reachedLater, committed, leads, later,
    durable_of_steady trio (by decide +kernel) (by decide) reached reachedLater⟩

end Cluster

end Quintet
