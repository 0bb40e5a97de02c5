import QuintetRaft.Safety.OneLeader
import QuintetRaft.Safety.OwnTerm

/-!
# What one leader replicates and commits

Guarantees for the runs of one leader in one term: what the followers share with its log, and how
many of them hold what it commits.
-/

namespace Quintet

namespace Cluster

variable {config : ClusterConfig} {leader : ServerId} {term : Nat}
  {cluster before after : Cluster} {label : ServerId × Event} {labels : List (ServerId × Event)}

/-! ## The first office -/

/-- No server has taken office yet. -/
structure BeforeOffice (cluster : Cluster) : Prop where
  /-- Private data belongs to the current identity. -/
  tidy : ∀ id, (cluster id).server.Tidy
  /-- Nobody is leader. -/
  roles : ∀ id, (cluster id).server.identity ≠ .leader
  /-- All logs hold only the sentinel. -/
  logs : ∀ id, cluster.log id = [{}]
  /-- Nothing is committed. -/
  commitIdx : ∀ id, (cluster id).server.state.commitIdx = 0
  /-- No `addLog` is suspended. -/
  idle : ∀ id, (cluster id).server.leader.addingLog = none
  /-- No append request is on the way. -/
  noRequest : ∀ id target msg, Output.appendEntries target msg ∉ (cluster id).sent
  /-- No reply to an append request is on the way. -/
  noReply : ∀ id msg reply, Output.appendReply msg reply ∉ (cluster id).sent

theorem beforeOffice_init : BeforeOffice init where
  tidy _ := Server.tidy_init
  roles _ := nofun
  logs _ := rfl
  commitIdx _ := rfl
  idle _ := rfl
  noRequest _ _ _ := List.not_mem_nil
  noReply _ _ _ := List.not_mem_nil

namespace BeforeOffice

variable {self : ServerId} {event : Event} {result : Server × List Output}

theorem not_delivered (quiet : BeforeOffice before) {msg : AppendEntriesMessage} :
    ¬ before.Delivered self (.rpcAppendEntries msg) :=
  quiet.noRequest msg.leaderId self msg

/-- A step of a server leaves its log and its commit index alone. -/
theorem state_step (quiet : BeforeOffice before) (delivered : before.Delivered self event)
    (taken : (before self).server.step (config.info self) event = some result) :
    result.1.state.entries = [{}] ∧ result.1.state.commitIdx = 0 := by
  refine ⟨?_, ?_⟩
  · rw [Server.step_entries taken, ← quiet.logs self]
    cases event with
    | rpcAppendEntries msg => exact absurd delivered quiet.not_delivered
    | rpcAddLog msg => simp [Server.entriesAfter, quiet.roles self, log]
    | _ => rfl
  · rcases Server.step_commitIdx taken with
      same | ⟨msg, rfl, -⟩ | ⟨target, idx, -, commits, -⟩
    · rw [same, quiet.commitIdx self]
    · exact absurd delivered quiet.not_delivered
    · have known := commits.1
      simp [Server.countedIdx, (quiet.tidy self).nodes (quiet.roles self) target] at known

/-- A step sends no append request and no reply to one. -/
theorem sent_step (quiet : BeforeOffice before) (delivered : before.Delivered self event)
    (taken : (before self).server.step (config.info self) event = some result) :
    (∀ target msg, Output.appendEntries target msg ∉ result.2) ∧
      ∀ msg reply, Output.appendReply msg reply ∉ result.2 := by
  refine ⟨fun target msg new => ?_, fun msg reply new => ?_⟩
  · obtain ⟨-, node, _, _, known, -⟩ := Server.step_emits taken new
    simp [(quiet.tidy self).nodes (quiet.roles self) target] at known
  · obtain ⟨rfl, -⟩ := Server.step_emits taken new
    exact quiet.not_delivered delivered

theorem idle_step (quiet : BeforeOffice before)
    (taken : (before self).server.step (config.info self) event = some result) :
    result.1.leader.addingLog = none := by
  have idle := quiet.idle self
  by_cases moves : event = .transform
  · subst moves
    obtain ⟨target, queued, rest, -, -, rfl⟩ := Server.step_transform.mp taken
    have left : (Server.leave { (before self).server with events := rest }).leader.addingLog =
        none := by
      unfold Server.leave
      split <;> exact idle
    rw [Server.transform_leader]
    split_ifs <;> exact left
  · cases Server.step_books taken moves with
    | still same => rw [same, idle]
    | adds msg adding idle stored same => exact absurd stored.1 (quiet.roles self)
    | added msg adding suspended same => rw [same]
    | moves target node changed known moved same => rw [same]; exact idle
    | counts target node idx replicateNum counting known thread counter same =>
        rw [same]; exact idle

section Step

variable (quiet : BeforeOffice before) (taken : Cluster.step config before label = some after)
include quiet taken

theorem after_tidy (id : ServerId) : (after id).server.Tidy :=
  forall_step taken (fun _ node => node.server.Tidy) (fun id _ => quiet.tidy id)
    (fun _ _ moved => (quiet.tidy _).step moved) id

/-- The logs stay as they are, whoever becomes leader. -/
theorem after_logs (id : ServerId) : after.log id = [{}] :=
  forall_step taken (fun _ node => node.server.state.entries = [{}]) (fun id _ => quiet.logs id)
    (fun _ delivered moved => (quiet.state_step delivered moved).1) id

theorem after_commitIdx (id : ServerId) : (after id).server.state.commitIdx = 0 :=
  forall_step taken (fun _ node => node.server.state.commitIdx = 0)
    (fun id _ => quiet.commitIdx id)
    (fun _ delivered moved => (quiet.state_step delivered moved).2) id

theorem after_idle (id : ServerId) : (after id).server.leader.addingLog = none :=
  forall_step taken (fun _ node => node.server.leader.addingLog = none)
    (fun id _ => quiet.idle id) (fun _ _ moved => quiet.idle_step moved) id

theorem after_noRequest (id target : ServerId) (msg : AppendEntriesMessage) :
    Output.appendEntries target msg ∉ (after id).sent :=
  forall_step taken (fun _ node => Output.appendEntries target msg ∉ node.sent)
    (fun id _ => quiet.noRequest id target msg)
    (fun _ delivered moved member => (List.mem_append.mp member).elim
      (quiet.noRequest _ target msg) ((quiet.sent_step delivered moved).1 target msg)) id

theorem after_noReply (id : ServerId) (msg : AppendEntriesMessage) (reply : Reply) :
    Output.appendReply msg reply ∉ (after id).sent :=
  forall_step taken (fun _ node => Output.appendReply msg reply ∉ node.sent)
    (fun id _ => quiet.noReply id msg reply)
    (fun _ delivered moved member => (List.mem_append.mp member).elim
      (quiet.noReply _ msg reply) ((quiet.sent_step delivered moved).2 msg reply)) id

end Step

/-- Nothing changes as long as nobody becomes leader. -/
theorem step (quiet : BeforeOffice before) (taken : Cluster.step config before label = some after)
    (waits : label.2 = .transform → (before label.1).server.nextTarget ≠ some .leader) :
    BeforeOffice after where
  tidy := quiet.after_tidy taken
  roles := by
    refine forall_step taken (fun _ node => node.server.identity ≠ .leader)
      (fun id _ => quiet.roles id) fun result _ moved => ?_
    obtain ⟨self, event⟩ := label
    dsimp only at moved waits ⊢
    by_cases moves : event = .transform
    · have notLeader := waits moves
      subst moves
      obtain ⟨target, queued, rest, queue, -, rfl⟩ := Server.step_transform.mp moved
      rw [Server.transform_identity]
      rintro rfl
      exact notLeader (by simp [Server.nextTarget, queue])
    · rw [Server.step_identity moved moves]
      exact quiet.roles self
  logs := quiet.after_logs taken
  commitIdx := quiet.after_commitIdx taken
  idle := quiet.after_idle taken
  noRequest := quiet.after_noRequest taken
  noReply := quiet.after_noReply taken

/-- The leader as `init` leaves it. -/
theorem office_step (quiet : BeforeOffice before) (delivered : before.Delivered self .transform)
    (taken : (before self).server.step (config.info self) .transform = some result)
    (elected : (before self).server.nextTarget = some .leader) :
    result.1.identity = .leader ∧
      result.1.leader.logStates = List.replicate result.1.state.entries.length 1 ∧
      result.1.state.currentTerm = (before self).server.state.currentTerm := by
  rw [Server.step_currentTerm taken, (quiet.state_step delivered taken).1]
  obtain ⟨target, queued, rest, queue, -, rfl⟩ := Server.step_transform.mp taken
  obtain rfl : target = .leader := by simpa [Server.nextTarget, queue] using elected
  refine ⟨Server.transform_identity, ?_, by simp [Server.termAfter, elected]⟩
  rw [Server.transform_leader, if_pos rfl, Server.leaderInit, Server.leave_state]
  exact congrArg (fun entries => List.replicate entries.length 1) (quiet.logs self)

/-- The first office is the start of a run of one leader. -/
theorem oneLeaderStart (quiet : BeforeOffice before)
    (taken : Cluster.step config before (leader, .transform) = some after)
    (elected : (before leader).server.nextTarget = some .leader)
    (positive : (before leader).server.state.currentTerm ≠ invalidTerm) :
    OneLeaderStart config leader (before leader).server.state.currentTerm after := by
  have logs := quiet.after_logs taken
  have commitIdx := quiet.after_commitIdx taken
  obtain ⟨-, delivered, result, moved, afterEq⟩ := step_eq_some.mp taken
  have office := quiet.office_step delivered moved elected
  obtain ⟨cursors, fresh⟩ := Cursors.transform (quiet.tidy leader) moved fun _ _ => True
  have acting : (after leader).server = result.1 := by
    rw [afterEq, Function.update_self]
  have others : ∀ id, id ≠ leader → after id = before id := fun id other => by
    rw [afterEq, Function.update_of_ne other]
  exact
    { tidy := quiet.after_tidy taken
      roles := fun id => by
        by_cases same : id = leader
        · subst same
          rw [acting]
          exact iff_of_true office.1 rfl
        · rw [others id same]
          exact iff_of_false (quiet.roles id) same
      inTerm := by rw [acting]; exact office.2.2
      nodes := fun target node known => by
        rw [acting] at known
        exact ⟨cursors.others target node known, fresh target node known⟩
      logStates := by
        rw [Cluster.log, acting]
        exact office.2.1
      idle := quiet.after_idle taken leader
      noRequest := quiet.after_noRequest taken
      noReply := quiet.after_noReply taken
      sentinel := fun id => by rw [logs, logs]
      matching := fun id _ => by
        rw [logs, logs]
        exact Logs.matching_of_prefix List.prefix_rfl
      older := fun id _ entry member => by
        rw [logs] at member
        obtain rfl := List.mem_singleton.mp member
        exact positive.symm
      inside := fun id => by rw [commitIdx, logs]; exact Nat.one_pos
      committed := fun id _ => by
        rw [commitIdx, logs, logs]
        exact List.take_prefix _ _ }

end BeforeOffice

/-- Nobody becomes leader. -/
def WaitsForOffice (before : Cluster) (label : ServerId × Event) (_ : Cluster) : Prop :=
  label.2 = .transform → (before label.1).server.nextTarget ≠ some .leader

instance : Decidable (WaitsForOffice before label after) :=
  inferInstanceAs (Decidable (_ → _))

/-- From the initial states on, the first office is the start of a run of one leader. -/
theorem oneLeaderStart_of_run (waits : Execution.Along (step config) WaitsForOffice labels init)
    (execution : Execution.run (step config) labels init = some before)
    (taken : step config before (leader, .transform) = some after)
    (elected : (before leader).server.nextTarget = some .leader)
    (inTerm : (before leader).server.state.currentTerm = term) (positive : term ≠ invalidTerm) :
    OneLeaderStart config leader term after := by
  have quiet : BeforeOffice before := Execution.invariant_of_along
    (fun _ _ _ => BeforeOffice.step) beforeOffice_init waits execution
  subst inTerm
  exact quiet.oneLeaderStart taken elected positive

/-! ## Replication -/

/-- A step loses nothing a follower shares with the leader's log, and what counts as replicated or
committed is shared. -/
structure Replicated (leader : ServerId) (before after : Cluster) (id : ServerId) : Prop where
  /-- Equal terms at an index mean equal logs up to it. -/
  matching : Logs.Matching LogEntry.term (after.log id) (after.log leader)
  /-- The longest common beginning does not get shorter. -/
  common : Logs.commonLength (before.log id) (before.log leader) ≤
    Logs.commonLength (after.log id) (after.log leader)
  /-- The logs are equal up to the match index of the follower. -/
  replicated : ∀ node, (after leader).server.leader.followerNodes id = some node →
    after.HoldsPrefix leader id (node.matchIdx + 1)
  /-- The logs are equal up to the end of every request the follower has accepted. -/
  accepted : ∀ msg reply, Output.appendReply msg reply ∈ (after id).sent → reply.2 = true →
    after.HoldsPrefix leader id msg.reach
  /-- The logs are equal up to the commit index of the follower. -/
  committed : (after.log id).take ((after id).server.state.commitIdx + 1) <+: after.log leader

namespace OneLeaderRecord

/-- A follower holds the leader's log up to its match index. -/
theorem replicated (record : OneLeaderRecord config leader term cluster) {id : ServerId}
    (other : id ≠ leader) {node : FollowerNode}
    (known : (cluster leader).server.leader.followerNodes id = some node) :
    cluster.HoldsPrefix leader id (node.matchIdx + 1) := by
  rcases record.cursors.acknowledged id node known with fresh | held
  · rw [fresh]
    exact ⟨(record.agreement id other).sentinel,
      (cluster leader).server.state.entries_length_pos⟩
  · exact held

theorem step_replicated (record : OneLeaderRecord config leader term before)
    (taken : Cluster.step config before label = some after)
    (allowed : Allowed leader term before label after) (id : ServerId) (other : id ≠ leader) :
    Replicated leader before after id := by
  have later := record.step taken allowed
  obtain ⟨grows, kept⟩ := record.logs_kept taken
  exact
    { matching := (later.agreement id other).matching
      common := Logs.commonLength_mono fun common inLog inRecord =>
        ⟨kept id common inLog inRecord, inRecord.trans grows⟩
      replicated := fun node known => later.replicated other known
      accepted := later.replies id
      committed := (later.agreement id other).committed }

end OneLeaderRecord

/-- Under one leader, whatever the network does, followers keep matching the leader's log, share
more and more of it, and hold what the leader takes for replicated. -/
theorem replicated_under_one_leader (start : OneLeaderStart config leader term cluster)
    (guarded : Execution.Along (step config) (Allowed leader term) labels cluster) :
    Execution.Along (step config)
      (fun before _ after => ∀ id, id ≠ leader → Replicated leader before after id)
      labels cluster := by
  have preserved := fun before label after (record : OneLeaderRecord config leader term before)
    (taken : step config before label = some after)
    (allowed : Allowed leader term before label after) =>
    And.intro (record.step taken allowed) (record.step_replicated taken allowed)
  exact Execution.along_of_invariant preserved start.record guarded

/-- The election of server 1 starts a run of one leader. -/
theorem firstElection_start {office : Cluster}
    (execution : Execution.run (step trio) firstElection init = some office) :
    OneLeaderStart trio (localServer 1) 1 office := by
  have elects : ∃ before ∈ Execution.run (step trio) firstVotes init,
      (before (localServer 1)).server.nextTarget = some .leader ∧
        (before (localServer 1)).server.state.currentTerm = 1 := by
    decide +kernel
  obtain ⟨before, votes, elected, inTerm⟩ := elects
  rw [firstElection, Execution.run_append, votes, Option.bind_some, Execution.run] at execution
  obtain ⟨after, taken, rest⟩ := Option.bind_eq_some_iff.mp execution
  obtain rfl := Option.some.inj rest
  exact oneLeaderStart_of_run (by decide +kernel) votes taken elected inTerm (by decide)

/-- Server 1 replicates a command to server 2 after its election. -/
theorem replicated_first_command :
    ∃ office ∈ Execution.run (step trio) firstElection init,
      (Execution.run (step trio) (firstReplication ++ firstCommit) office).isSome ∧
        Execution.Along (step trio)
          (fun before _ after =>
            ∀ id, id ≠ localServer 1 → Replicated (localServer 1) before after id)
          (firstReplication ++ firstCommit) office := by
  have allowed : ∃ office ∈ Execution.run (step trio) firstElection init,
      (Execution.run (step trio) (firstReplication ++ firstCommit) office).isSome ∧
        Execution.Along (step trio) (Allowed (localServer 1) 1)
          (firstReplication ++ firstCommit) office := by
    decide +kernel
  obtain ⟨office, execution, enabled, guarded⟩ := allowed
  exact ⟨office, execution, enabled,
    replicated_under_one_leader (firstElection_start execution) guarded⟩

/-! ## Commits -/

/-- A server has the leader's entry at an index. -/
def HoldsEntry (leader : ServerId) (cluster : Cluster) (idx : Nat) (id : ServerId) : Prop :=
  idx < (cluster.log leader).length ∧ (cluster.log id)[idx]? = (cluster.log leader)[idx]?

instance (idx : Nat) (id : ServerId) : Decidable (cluster.HoldsEntry leader idx id) :=
  inferInstanceAs (Decidable (_ ∧ _))

theorem HoldsPrefix.holdsEntry {idx count : Nat} {id : ServerId}
    (held : cluster.HoldsPrefix leader id count) (below : idx < count) :
    cluster.HoldsEntry leader idx id := by
  have inside : idx < (cluster.log leader).length := Nat.lt_of_lt_of_le below held.2
  refine ⟨inside, ?_⟩
  rw [List.getElem?_eq_getElem inside]
  refine getElem?_of_prefix held.1 ?_
  rw [List.getElem?_take_of_lt below, List.getElem?_eq_getElem inside]

/-- The leader commits what a majority holds, and its counters count only who holds the entry. -/
structure CommitsReplicated (config : ClusterConfig) (leader : ServerId) (before after : Cluster) :
    Prop where
  /-- A greater commit index is the index of an entry that a majority holds, with the leader. -/
  commits : (before leader).server.state.commitIdx < (after leader).server.state.commitIdx →
    after.HoldsEntry leader (after leader).server.state.commitIdx leader ∧
      Majority config.srvList
        (after.HoldsEntry leader (after leader).server.state.commitIdx)
  /-- A counter counts the leader and at most the followers that hold the entry. -/
  counters : ∀ (idx replicateNum : Nat),
    (after leader).server.leader.logStates[idx]? = some replicateNum →
    replicateNum ≤ 1 + (config.info leader).others.countP (after.HoldsEntry leader idx ·)

/-- The leader's counting loops stay within what the followers have acknowledged. -/
def CountsSent (leader : ServerId) (term : Nat) (before : Cluster) (label : ServerId × Event)
    (after : Cluster) : Prop :=
  Allowed leader term before label after ∧ ¬ (before label.1).server.CountsUnsent label.2

namespace OneLeaderRecord

/-- Who is counted holds the entry. -/
theorem holdsEntry_of_counted (record : OneLeaderRecord config leader term cluster)
    (counters : Counters (config.info leader) (cluster leader).server.leader) {idx : Nat}
    {id : ServerId} (other : id ≠ leader)
    (counted : idx ≤ (cluster leader).server.leader.countedTo id) :
    cluster.HoldsEntry leader idx id := by
  cases known : (cluster leader).server.leader.followerNodes id with
  | none =>
      have first : idx = 0 := by simpa [LeaderImpl.countedTo, known] using counted
      have sentinel : cluster.HoldsPrefix leader id 1 :=
        ⟨(record.agreement id other).sentinel,
          (cluster leader).server.state.entries_length_pos⟩
      exact sentinel.holdsEntry (by omega)
  | some node =>
      rw [countedTo_of_known known] at counted
      have within := counters.within id node known
      exact (record.replicated other known).holdsEntry (by omega)

theorem counters_le (record : OneLeaderRecord config leader term cluster)
    (counters : Counters (config.info leader) (cluster leader).server.leader)
    {idx replicateNum : Nat}
    (counter : (cluster leader).server.leader.logStates[idx]? = some replicateNum) :
    replicateNum ≤ 1 + (config.info leader).others.countP (cluster.HoldsEntry leader idx ·) := by
  have bounded := counters.bounded idx replicateNum counter
  have fewer : (config.info leader).others.countP
      (fun id => decide (idx ≤ (cluster leader).server.leader.countedTo id)) ≤
        (config.info leader).others.countP (cluster.HoldsEntry leader idx ·) := by
    refine List.countP_mono_left fun id listed counted => ?_
    rw [decide_eq_true_iff] at counted ⊢
    exact record.holdsEntry_of_counted counters (ServerInfo.mem_others.mp listed).2 counted
  omega

/-- A counter above one half is a majority. -/
theorem majority_of_counter (record : OneLeaderRecord config leader term cluster)
    (counters : Counters (config.info leader) (cluster leader).server.leader)
    (listed : leader ∈ config.srvList) {idx replicateNum : Nat}
    (counter : (cluster leader).server.leader.logStates[idx]? = some replicateNum)
    (many : (config.info leader).exceedsHalf replicateNum) :
    cluster.HoldsEntry leader idx leader ∧
      Majority config.srvList (cluster.HoldsEntry leader idx) := by
  have inside : idx < (cluster leader).server.leader.logStates.length :=
    (List.getElem?_eq_some_iff.mp counter).1
  have short := record.counters
  have own : cluster.HoldsEntry leader idx leader := ⟨by omega, rfl⟩
  exact ⟨own, counters.majority config.nodup listed own
    (fun id other => record.holdsEntry_of_counted counters (ServerInfo.mem_others.mp other).2)
    counter many⟩

theorem counters_kept (record : OneLeaderRecord config leader term before)
    (counters : Counters (config.info leader) (before leader).server.leader)
    (taken : Cluster.step config before label = some after)
    (sent : CountsSent leader term before label after) :
    Counters (config.info leader) (after leader).server.leader := by
  obtain ⟨-, -, result, moved, rfl⟩ := step_eq_some.mp taken
  obtain ⟨self, event⟩ := label
  obtain ⟨allowed, careful⟩ := sent
  dsimp only at moved careful ⊢
  by_cases acts : leader = self
  · subst acts
    rw [Function.update_self]
    have kept : event ≠ .transform := fun moves => (allowed.1 moves).1 rfl
    exact counters.step record.cursors (Server.step_books moved kept) careful
  · rw [Function.update_of_ne acts]
    exact counters

theorem step_commits (record : OneLeaderRecord config leader term before)
    (counters : Counters (config.info leader) (before leader).server.leader)
    (taken : Cluster.step config before label = some after)
    (sent : CountsSent leader term before label after) :
    CommitsReplicated config leader before after := by
  have later := record.step taken sent.1
  have laterCounters := record.counters_kept counters taken sent
  refine ⟨fun raised => ?_, fun idx replicateNum counter =>
    later.counters_le laterCounters counter⟩
  obtain ⟨listed, delivered, result, moved, equal⟩ := step_eq_some.mp taken
  obtain ⟨self, event⟩ := label
  dsimp only at listed delivered moved equal
  by_cases acts : leader = self
  · subst acts
    have same : (after leader).server = result.1 := by rw [equal, Function.update_self]
    rw [same] at raised ⊢
    rcases record.leader_commitIdx moved delivered with
      unchanged | ⟨target, idx, rfl, commits, reached, -⟩
    · omega
    · obtain ⟨replicateNum, counter, many⟩ := Server.step_counts moved commits
      rw [reached]
      exact later.majority_of_counter laterCounters listed (same ▸ counter) many
  · rw [equal, Function.update_of_ne acts] at raised
    omega

end OneLeaderRecord

/-- As long as the counting loops stay within what the followers have acknowledged, one leader
commits only what a majority holds. -/
theorem commitsReplicated_of_countsSent (start : OneLeaderStart config leader term cluster)
    (guarded : Execution.Along (step config) (CountsSent leader term) labels cluster) :
    Execution.Along (step config)
      (fun before _ after => CommitsReplicated config leader before after) labels cluster := by
  have preserved := fun before label after
    (invariant : OneLeaderRecord config leader term before ∧
      Counters (config.info leader) (before leader).server.leader)
    (taken : step config before label = some after)
    (sent : CountsSent leader term before label after) =>
    And.intro
      (And.intro (invariant.1.step taken sent.1) (invariant.1.counters_kept invariant.2 taken sent))
      (invariant.1.step_commits invariant.2 taken sent)
  exact Execution.along_of_invariant preserved ⟨start.record, start.counters⟩ guarded

instance : Decidable (CountsSent leader term before label after) :=
  inferInstanceAs (Decidable (_ ∧ _))

/-- Server 1 commits its first command when server 2 holds it. -/
theorem commitsReplicated_first_commit :
    ∃ office ∈ Execution.run (step trio) firstElection init,
      (Execution.run (step trio) (firstReplication ++ firstCommit) office).isSome ∧
        Execution.Along (step trio)
          (fun before _ after => CommitsReplicated trio (localServer 1) before after)
          (firstReplication ++ firstCommit) office := by
  have sent : ∃ office ∈ Execution.run (step trio) firstElection init,
      (Execution.run (step trio) (firstReplication ++ firstCommit) office).isSome ∧
        Execution.Along (step trio) (CountsSent (localServer 1) 1)
          (firstReplication ++ firstCommit) office := by
    decide +kernel
  obtain ⟨office, execution, enabled, guarded⟩ := sent
  exact ⟨office, execution, enabled,
    commitsReplicated_of_countsSent (firstElection_start execution) guarded⟩

/-- Server 2 is asked to confirm the sentinel, and while it does, server 1 stores a command. -/
def overcounting : List (ServerId × Event) :=
  [(localServer 1, .startAppending (localServer 2)),
    (localServer 1, .sendAppendEntries (localServer 2)),
    (localServer 1, .rpcAddLog firstCommand), (localServer 1, .addLogState),
    (localServer 2, .rpcAppendEntries { term := 1, leaderId := localServer 1 }),
    (localServer 1, .receiveAppendReply (localServer 2)
      { term := 1, leaderId := localServer 1 } (1, true)),
    (localServer 1, .countReplica (localServer 2))]

/-- Server 1 commits a command that nobody else has been sent. -/
theorem commitsReplicated_counterexample :
    ∃ office ∈ Execution.run (step trio) firstElection init,
      OneLeaderStart trio (localServer 1) 1 office ∧
        Execution.Along (step trio) (Allowed (localServer 1) 1) overcounting office ∧
        ¬ Execution.Along (step trio)
          (fun before _ after => CommitsReplicated trio (localServer 1) before after)
          overcounting office := by
  have commits : ∃ office ∈ Execution.run (step trio) firstElection init,
      Execution.Along (step trio) (Allowed (localServer 1) 1) overcounting office ∧
        ¬ Execution.Along (step trio)
          (fun before _ after =>
            (before (localServer 1)).server.state.commitIdx <
              (after (localServer 1)).server.state.commitIdx →
            trio.srvList.length / 2 < trio.srvList.countP
              (after.HoldsEntry (localServer 1)
                (after (localServer 1)).server.state.commitIdx ·))
          overcounting office := by
    decide +kernel
  obtain ⟨office, execution, allowed, fails⟩ := commits
  refine ⟨office, execution, firstElection_start execution, allowed, fun replicated => fails ?_⟩
  exact replicated.mono fun before label after holds raised =>
    (Majority.iff_countP trio.nodup).mp (holds.commits raised).2

end Cluster

end Quintet
