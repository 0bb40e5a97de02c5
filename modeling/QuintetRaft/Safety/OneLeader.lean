import QuintetRaft.Library.Execution
import QuintetRaft.Model.Cluster
import QuintetRaft.Safety.Bookkeeping

/-!
# Replication under one leader

One server leads in one term while the others only follow, and the network delays, loses, reorders
and repeats its messages.  What a follower shares with the leader's log is never lost.  The counters
of the leader are right as long as its counting loops stay within what the followers have
acknowledged.
-/

namespace Quintet

/-! ## One follower -/

/-- How a follower's log stands to the leader's. -/
structure FollowerAgreement (term : Nat) (log : List LogEntry) (state : ServerState) : Prop where
  /-- Equal terms at an index mean equal logs up to it. -/
  matching : Logs.Matching LogEntry.term state.entries log
  /-- Entries of the leader's term come from the leader. -/
  own : ∀ idx entry, state.entries[idx]? = some entry → entry.term = term →
    state.entries.take (idx + 1) <+: log
  /-- The logs have the same sentinel. -/
  sentinel : log.take 1 <+: state.entries
  /-- The commit index points into the log. -/
  inside : state.commitIdx < state.entries.length
  /-- What is committed is in the leader's log. -/
  committed : state.entries.take (state.commitIdx + 1) <+: log

namespace FollowerAgreement

variable {term : Nat} {log : List LogEntry} {state : ServerState} {info : ServerInfo}
  {srv : Server} {event : Event} {result : Server × List Output}

theorem log_ne (agreement : FollowerAgreement term log state) : log ≠ [] := by
  rintro rfl
  have short := agreement.committed.length_le
  rw [List.length_take_of_le agreement.inside] at short
  simp at short

/-- The leader adds an entry of its term. -/
theorem extend (agreement : FollowerAgreement term log state) {entry : LogEntry}
    (own : entry.term = term) : FollowerAgreement term (log ++ [entry]) state where
  matching idx first second present found sameTerm := by
    rcases Logs.getElem?_concat found with earlier | ⟨past, rfl⟩
    · have past : idx + 1 ≤ log.length := (List.getElem?_eq_some_iff.mp earlier).1
      rw [agreement.matching idx first second present earlier sameTerm,
        List.take_append_of_le_length past]
    · have short := (agreement.own idx first present (sameTerm.trans own)).length_le
      have inside : idx + 1 ≤ state.entries.length := (List.getElem?_eq_some_iff.mp present).1
      rw [List.length_take_of_le inside] at short
      omega
  own idx first present sameTerm :=
    (agreement.own idx first present sameTerm).trans (List.prefix_append _ _)
  sentinel := by
    rw [List.take_append_of_le_length (List.length_pos_of_ne_nil agreement.log_ne)]
    exact agreement.sentinel
  inside := agreement.inside
  committed := agreement.committed.trans (List.prefix_append _ _)

/-- A step of a follower loses nothing that it shares with the leader's log, and an accepted
request brings its log up to the slice the request speaks about. -/
theorem kept (agreement : FollowerAgreement term log srv.state)
    (taken : srv.step info event = some result) (role : srv.identity ≠ .leader)
    (carried : ∀ msg, event = .rpcAppendEntries msg → Carries log msg) :
    (result.1.state.entries = srv.state.entries ∨ result.1.state.entries <+: log) ∧
      (∀ common, common <+: srv.state.entries → common <+: log →
        common <+: result.1.state.entries) ∧
      ∀ msg, event = .rpcAppendEntries msg → srv.Accepts msg →
        log.take msg.reach <+: result.1.state.entries := by
  rw [Server.step_entries taken]
  cases event with
  | rpcAppendEntries msg =>
      simp only [Server.entriesAfter]
      split_ifs with accepted
      · have replaced := replicate_replaces agreement.matching (carried msg rfl) accepted.2.2
        refine ⟨?_, fun common inLog inRecord =>
          replaced.keeps (List.take_prefix _ _) inLog inRecord, ?_⟩
        · refine replaced.eq_or_eq.imp_right fun equal => ?_
          rw [equal]
          exact List.take_prefix _ _
        · rintro other same -
          cases same
          exact replaced.begins
      · refine ⟨.inl rfl, fun _ inLog _ => inLog, ?_⟩
        rintro other same accepts
        cases same
        exact absurd accepts accepted
  | rpcAddLog msg =>
      have same : srv.entriesAfter (.rpcAddLog msg) = srv.state.entries := by
        simp [Server.entriesAfter, role]
      rw [same]
      exact ⟨.inl rfl, fun _ inLog _ => inLog, by simp⟩
  | _ => exact ⟨.inl rfl, fun _ inLog _ => inLog, by simp⟩

/-- A step of a follower keeps the agreement. -/
theorem step (agreement : FollowerAgreement term log srv.state) (tidy : srv.Tidy)
    (taken : srv.step info event = some result) (role : srv.identity ≠ .leader)
    (carried : ∀ msg, event = .rpcAppendEntries msg →
      Carries log msg ∧ msg.commitIdx < msg.reach) :
    FollowerAgreement term log result.1.state := by
  obtain ⟨source, kept, accepts⟩ :=
    agreement.kept taken role fun msg same => (carried msg same).1
  have committed : result.1.state.commitIdx < result.1.state.entries.length ∧
      result.1.state.entries.take (result.1.state.commitIdx + 1) <+: log := by
    rcases Server.step_commitIdx taken with
      same | ⟨msg, rfl, accepted, -, raised⟩ | ⟨target, idx, -, commits, -, -⟩
    · have still := kept _ (List.take_prefix (srv.state.commitIdx + 1) _) agreement.committed
      have long : (srv.state.entries.take (srv.state.commitIdx + 1)).length =
          srv.state.commitIdx + 1 := List.length_take_of_le agreement.inside
      have equal := List.prefix_iff_eq_take.mp still
      rw [long] at equal
      refine ⟨?_, by rw [same, ← equal]; exact agreement.committed⟩
      have fits := still.length_le
      omega
    · obtain ⟨carries, below⟩ := carried msg rfl
      have reached := accepts msg rfl accepted
      have long : (log.take msg.reach).length = msg.reach := List.length_take_of_le carries.reach_le
      have fits := reached.length_le
      have sameIdx : result.1.state.commitIdx = msg.commitIdx := by omega
      refine ⟨by omega, ?_⟩
      rw [sameIdx]
      have inner : result.1.state.entries.take (msg.commitIdx + 1) <+: log.take msg.reach :=
        List.prefix_of_prefix_length_le (List.take_prefix _ _) reached (by
          rw [List.length_take, long]; omega)
      exact inner.trans (List.take_prefix _ _)
    · have known := commits.1
      simp [Server.countedIdx, tidy.nodes role target] at known
  refine ⟨?_, ?_, ?_, committed.1, committed.2⟩
  · rcases source with same | begins
    · exact same ▸ agreement.matching
    · exact Logs.matching_of_prefix begins
  · rcases source with same | begins
    · exact same ▸ agreement.own
    · exact fun idx _ _ _ => (List.take_prefix _ _).trans begins
  · exact kept _ agreement.sentinel (List.take_prefix _ _)

end FollowerAgreement

/-! ## The cluster -/

namespace Cluster

variable {config : ClusterConfig} {leader : ServerId} {term : Nat}
  {cluster before after : Cluster} {label : ServerId × Event}

/-- The log of a server. -/
abbrev log (cluster : Cluster) (id : ServerId) : List LogEntry :=
  (cluster id).server.state.entries

/-- A leader has just taken office, no request or reply of its term is on the way, and the logs of
the others match its log and have no entry of its term. -/
structure OneLeaderStart (config : ClusterConfig) (leader : ServerId) (term : Nat)
    (cluster : Cluster) : Prop where
  /-- Private data belongs to the current identity. -/
  tidy : ∀ id, (cluster id).server.Tidy
  /-- Exactly one server is leader. -/
  roles : ∀ id, (cluster id).server.identity = .leader ↔ id = leader
  /-- Its term. -/
  inTerm : (cluster leader).server.state.currentTerm = term
  /-- Its nodes are those of `reinitStates`. -/
  nodes : ∀ target node, (cluster leader).server.leader.followerNodes target = some node →
    target ∈ (config.info leader).others ∧ node = {}
  /-- Its counters are those of `reinitStates`. -/
  logStates : (cluster leader).server.leader.logStates =
    List.replicate (cluster.log leader).length 1
  /-- No `addLog` is suspended. -/
  idle : (cluster leader).server.leader.addingLog = none
  /-- No append request is on the way. -/
  noRequest : ∀ id target msg, Output.appendEntries target msg ∉ (cluster id).sent
  /-- No reply to an append request is on the way. -/
  noReply : ∀ id msg reply, Output.appendReply msg reply ∉ (cluster id).sent
  /-- All logs have the same sentinel. -/
  sentinel : ∀ id, (cluster.log id).take 1 = (cluster.log leader).take 1
  /-- Equal terms at an index mean equal logs up to it. -/
  matching : ∀ id, id ≠ leader →
    Logs.Matching LogEntry.term (cluster.log id) (cluster.log leader)
  /-- The followers have no entry of the leader's term. -/
  older : ∀ id, id ≠ leader → ∀ entry ∈ cluster.log id, entry.term ≠ term
  /-- Commit indices point into the logs. -/
  inside : ∀ id, (cluster id).server.state.commitIdx < (cluster.log id).length
  /-- The followers have committed nothing but what is in the leader's log. -/
  committed : ∀ id, id ≠ leader →
    (cluster.log id).take ((cluster id).server.state.commitIdx + 1) <+: cluster.log leader

/-- The leader stays leader of its term: it is asked for no vote and gets no reply of a greater
term, and nobody else becomes leader. -/
def Allowed (leader : ServerId) (term : Nat) (before : Cluster) (label : ServerId × Event)
    (_ : Cluster) : Prop :=
  (label.2 = .transform → label.1 ≠ leader ∧
      (before label.1).server.nextTarget ≠ some .leader) ∧
    (label.1 = leader → label.2.voteRequest = none) ∧
    ∀ reply ∈ label.2.appendReply, reply.1 ≤ term

instance : Decidable (Allowed leader term before label after) :=
  inferInstanceAs (Decidable (_ ∧ _ ∧ _))

/-- A server has acknowledged a number of entries of the leader's log. -/
def HoldsPrefix (leader : ServerId) (cluster : Cluster) (id : ServerId) (count : Nat) : Prop :=
  (cluster.log leader).take count <+: cluster.log id ∧ count ≤ (cluster.log leader).length

/-- What holds while one server leads. -/
structure OneLeaderRecord (config : ClusterConfig) (leader : ServerId) (term : Nat)
    (cluster : Cluster) : Prop where
  /-- Private data belongs to the current identity. -/
  tidy : ∀ id, (cluster id).server.Tidy
  /-- Exactly one server is leader. -/
  roles : ∀ id, (cluster id).server.identity = .leader ↔ id = leader
  /-- Its term. -/
  inTerm : (cluster leader).server.state.currentTerm = term
  /-- The logs of the others agree with its log. -/
  agreement : ∀ id, id ≠ leader →
    FollowerAgreement term (cluster.log leader) (cluster id).server.state
  /-- Requests carry slices of its log. -/
  requests : ∀ id target msg, Output.appendEntries target msg ∈ (cluster id).sent →
    target ≠ leader ∧ Carries (cluster.log leader) msg ∧ msg.commitIdx < msg.reach
  /-- Who has accepted a request holds the slice. -/
  replies : ∀ id msg reply, Output.appendReply msg reply ∈ (cluster id).sent →
    reply.2 = true → cluster.HoldsPrefix leader id msg.reach
  /-- Its cursors follow what the others hold. -/
  cursors : Cursors (config.info leader) (cluster.HoldsPrefix leader)
    (cluster leader).server.leader
  /-- It counts no more entries than it has. -/
  counters : (cluster leader).server.leader.logStates.length +
    (cluster leader).server.leader.addingLog.toList.length ≤ (cluster.log leader).length
  /-- Its commit index points into its log. -/
  inside : (cluster leader).server.state.commitIdx < (cluster.log leader).length

theorem OneLeaderStart.record (start : OneLeaderStart config leader term cluster) :
    OneLeaderRecord config leader term cluster where
  tidy := start.tidy
  roles := start.roles
  inTerm := start.inTerm
  agreement id other :=
    { matching := start.matching id other
      own := fun idx entry present sameTerm =>
        absurd sameTerm (start.older id other entry (List.mem_of_getElem? present))
      sentinel := by
        rw [← start.sentinel id]
        exact List.take_prefix _ _
      inside := start.inside id
      committed := start.committed id other }
  requests id target msg sent := absurd sent (start.noRequest id target msg)
  replies id msg reply sent := absurd sent (start.noReply id msg reply)
  cursors :=
    { others := fun target node known => (start.nodes target node known).1
      sound := fun target node known => by
        rw [(start.nodes target node known).2]
        exact ⟨Nat.le_refl 1, trivial⟩
      acknowledged := fun target node known => .inl (by rw [(start.nodes target node known).2]) }
  counters := by simp [start.logStates, start.idle]
  inside := start.inside leader

/-- Every counter of a new leader counts the leader alone. -/
theorem OneLeaderStart.counters (start : OneLeaderStart config leader term cluster) :
    Counters (config.info leader) (cluster leader).server.leader where
  within target node known := by
    rw [(start.nodes target node known).2]
    exact Nat.le_refl 0
  bounded idx count counter := by
    rw [start.logStates] at counter
    have one : count = 1 := List.eq_of_mem_replicate (List.mem_of_getElem? counter)
    omega

namespace OneLeaderRecord

/-- A delivered append request is for another server and carries a slice of the leader's log. -/
theorem delivered_request (record : OneLeaderRecord config leader term cluster) {self : ServerId}
    {msg : AppendEntriesMessage} (delivered : cluster.Delivered self (.rpcAppendEntries msg)) :
    self ≠ leader ∧ Carries (cluster.log leader) msg ∧ msg.commitIdx < msg.reach :=
  record.requests msg.leaderId self msg delivered

theorem matchIdx_lt (record : OneLeaderRecord config leader term cluster) {target : ServerId}
    {node : FollowerNode}
    (known : (cluster leader).server.leader.followerNodes target = some node) :
    node.matchIdx < (cluster.log leader).length := by
  rcases record.cursors.acknowledged target node known with none | ⟨-, held⟩
  · rw [none]
    exact (cluster leader).server.state.entries_length_pos
  · exact held

/-- The leader's log grows at its end, by entries of its term. -/
theorem leader_log (record : OneLeaderRecord config leader term before) {event : Event}
    {result : Server × List Output}
    (taken : (before leader).server.step (config.info leader) event = some result)
    (delivered : before.Delivered leader event) :
    result.1.state.entries = before.log leader ∨
      ∃ entry, entry.term = term ∧ result.1.state.entries = before.log leader ++ [entry] := by
  rw [Server.step_entries taken]
  cases event with
  | rpcAppendEntries msg => exact absurd rfl (record.delivered_request delivered).1
  | rpcAddLog msg =>
      simp only [Server.entriesAfter]
      split_ifs
      · exact .inr ⟨_, record.inTerm, rfl⟩
      · exact .inl rfl
  | _ => exact .inl rfl

/-- No step loses an entry of the leader's log, or what a server shares with it. -/
theorem logs_kept (record : OneLeaderRecord config leader term before)
    (taken : Cluster.step config before label = some after) :
    before.log leader <+: after.log leader ∧
      ∀ id common, common <+: before.log id → common <+: before.log leader →
        common <+: after.log id := by
  obtain ⟨-, delivered, result, moved, rfl⟩ := step_eq_some.mp taken
  obtain ⟨self, event⟩ := label
  dsimp only at moved delivered ⊢
  by_cases role : self = leader
  · subst role
    have grows : before.log self <+: result.1.state.entries := by
      rcases record.leader_log moved delivered with same | ⟨entry, -, longer⟩
      · rw [same]
      · rw [longer]
        exact List.prefix_append _ _
    refine ⟨by simpa [log] using grows, fun id common inLog inRecord => ?_⟩
    by_cases same : id = self
    · subst same
      simpa [log] using inLog.trans grows
    · simpa [log, same] using inLog
  · refine ⟨by simp [log, Ne.symm role], fun id common inLog inRecord => ?_⟩
    by_cases same : id = self
    · subst same
      have kept := (record.agreement id role).kept moved (mt (record.roles id).mp role)
        fun msg sent => (record.delivered_request (sent ▸ delivered)).2.1
      simpa [log] using kept.2.1 common inLog inRecord
    · simpa [log, same] using inLog

theorem holdsPrefix_kept (record : OneLeaderRecord config leader term before)
    (taken : Cluster.step config before label = some after) {id : ServerId} {count : Nat}
    (held : before.HoldsPrefix leader id count) : after.HoldsPrefix leader id count := by
  obtain ⟨grows, kept⟩ := record.logs_kept taken
  have same : (after.log leader).take count = (before.log leader).take count := by
    rw [List.prefix_iff_eq_take.mp grows, List.take_take, Nat.min_eq_left held.2]
  refine ⟨?_, held.2.trans grows.length_le⟩
  rw [same]
  exact kept id _ held.1 (List.take_prefix _ _)

theorem roles_step (record : OneLeaderRecord config leader term before)
    (taken : Cluster.step config before label = some after)
    (allowed : Allowed leader term before label after) (id : ServerId) :
    (after id).server.identity = .leader ↔ id = leader := by
  refine forall_step taken (fun id node => node.server.identity = .leader ↔ id = leader)
    (fun id _ => record.roles id) (fun result _ moved => ?_) id
  by_cases moves : label.2 = .transform
  · obtain ⟨other, notLeader⟩ := allowed.1 moves
    rw [moves] at moved
    obtain ⟨target, queued, rest, queue, -, rfl⟩ := Server.step_transform.mp moved
    have apart : target ≠ .leader := by
      rintro rfl
      exact notLeader (by simp [Server.nextTarget, queue])
    exact iff_of_false (by rwa [Server.transform_identity]) other
  · rw [Server.step_identity moved moves]
    exact record.roles label.1

theorem inTerm_step (record : OneLeaderRecord config leader term before)
    (taken : Cluster.step config before label = some after)
    (allowed : Allowed leader term before label after) :
    (after leader).server.state.currentTerm = term := by
  obtain ⟨-, delivered, result, moved, rfl⟩ := step_eq_some.mp taken
  by_cases same : leader = label.1
  · subst same
    rw [Function.update_self, Server.step_currentTerm moved, ← record.inTerm]
    obtain ⟨self, event⟩ := label
    cases event with
    | rpcRequestVote msg => exact nomatch allowed.2.1 rfl
    | rpcAppendEntries msg => exact absurd rfl (record.delivered_request delivered).1
    | transform => exact absurd rfl (allowed.1 rfl).1
    | receiveAppendReply target msg reply =>
        have small := allowed.2.2 reply rfl
        rw [← record.inTerm] at small
        simp [Server.termAfter, Nat.max_eq_left small]
    | _ => rfl
  · rw [Function.update_of_ne same]
    exact record.inTerm

theorem agreement_step (record : OneLeaderRecord config leader term before)
    (taken : Cluster.step config before label = some after) (id : ServerId)
    (other : id ≠ leader) :
    FollowerAgreement term (after.log leader) (after id).server.state := by
  obtain ⟨-, delivered, result, moved, rfl⟩ := step_eq_some.mp taken
  obtain ⟨self, event⟩ := label
  dsimp only at moved delivered ⊢
  by_cases role : self = leader
  · subst role
    simp only [log, Function.update_self, Function.update_of_ne other]
    rcases record.leader_log moved delivered with same | ⟨entry, own, longer⟩
    · rw [same]
      exact record.agreement id other
    · rw [longer]
      exact (record.agreement id other).extend own
  · simp only [log, Function.update_of_ne (Ne.symm role)]
    by_cases same : id = self
    · subst same
      rw [Function.update_self]
      exact (record.agreement id other).step (record.tidy id) moved
        (mt (record.roles id).mp other)
        fun msg sent => (record.delivered_request (sent ▸ delivered)).2
    · rw [Function.update_of_ne same]
      exact record.agreement id other

theorem requests_step (record : OneLeaderRecord config leader term before)
    (taken : Cluster.step config before label = some after) (id target : ServerId)
    (msg : AppendEntriesMessage) (sent : Output.appendEntries target msg ∈ (after id).sent) :
    target ≠ leader ∧ Carries (after.log leader) msg ∧ msg.commitIdx < msg.reach := by
  have grows := (record.logs_kept taken).1
  rcases sent_cases taken sent with old | ⟨rfl, -, result, moved, new⟩
  · obtain ⟨apart, carries, below⟩ := record.requests id target msg old
    exact ⟨apart, carries.mono grows, below⟩
  · obtain ⟨-, node, _, _, known, -, built⟩ := Server.step_emits moved new
    have role : label.1 = leader :=
      (record.roles label.1).mp ((record.tidy label.1).role_of_known known)
    rw [role] at known built
    have positive := (record.cursors.sound target node known).1
    obtain ⟨carries, reach, -, -, -, sameIdx⟩ :=
      createAppendEntriesMessage_eq_some built positive
    refine ⟨(ServerInfo.mem_others.mp (record.cursors.others target node known)).2,
      carries.mono grows, ?_⟩
    rw [sameIdx, reach]
    exact record.inside

theorem replies_step (record : OneLeaderRecord config leader term before)
    (taken : Cluster.step config before label = some after) (id : ServerId)
    (msg : AppendEntriesMessage) (reply : Reply)
    (sent : Output.appendReply msg reply ∈ (after id).sent) (success : reply.2 = true) :
    after.HoldsPrefix leader id msg.reach := by
  have grows := (record.logs_kept taken).1
  obtain ⟨-, delivered, result, moved, equal⟩ := step_eq_some.mp taken
  by_cases same : id = label.1
  · subst same
    rw [equal, Function.update_self, List.mem_append] at sent
    rcases sent with old | new
    · exact record.holdsPrefix_kept taken (record.replies _ msg reply old success)
    · obtain ⟨handles, rfl⟩ := Server.step_emits moved new
      rw [Server.rpcAppendEntries_reply, decide_eq_true_iff] at success
      rw [handles] at delivered
      obtain ⟨other, carries, -⟩ := record.delivered_request delivered
      have kept := (record.agreement _ other).kept moved (mt (record.roles _).mp other)
        fun request sent => by
          rw [handles] at sent
          cases sent
          exact carries
      have held := kept.2.2 msg handles success
      subst equal
      refine ⟨?_, ?_⟩
      · simpa [log, Ne.symm other] using held
      · simpa [log, Ne.symm other] using carries.reach_le
  · rw [equal, Function.update_of_ne same] at sent
    exact record.holdsPrefix_kept taken (record.replies id msg reply sent success)

theorem cursors_step (record : OneLeaderRecord config leader term before)
    (taken : Cluster.step config before label = some after)
    (allowed : Allowed leader term before label after) :
    Cursors (config.info leader) (after.HoldsPrefix leader) (after leader).server.leader := by
  have more : ∀ target count, before.HoldsPrefix leader target count →
      after.HoldsPrefix leader target count :=
    fun _ _ held => record.holdsPrefix_kept taken held
  obtain ⟨-, delivered, result, moved, equal⟩ := step_eq_some.mp taken
  obtain ⟨self, event⟩ := label
  dsimp only at moved delivered equal
  by_cases acts : leader = self
  · subst acts
    have kept : event ≠ .transform := fun moves => (allowed.1 moves).1 rfl
    have same : (after leader).server.leader = result.1.leader := by
      rw [equal, Function.update_self]
    rw [same]
    refine (record.cursors.step (Server.step_books moved kept)
      (fun target node _ known => record.matchIdx_lt known) ?_).mono more
    rintro target msg answer rfl
    exact record.replies target msg (answer, true) delivered rfl
  · have same : after leader = before leader := by rw [equal, Function.update_of_ne acts]
    rw [same]
    exact record.cursors.mono more

theorem counters_step (record : OneLeaderRecord config leader term before)
    (taken : Cluster.step config before label = some after)
    (allowed : Allowed leader term before label after) :
    (after leader).server.leader.logStates.length +
      (after leader).server.leader.addingLog.toList.length ≤ (after.log leader).length := by
  have grows := (record.logs_kept taken).1.length_le
  have bounded := record.counters
  obtain ⟨-, -, result, moved, equal⟩ := step_eq_some.mp taken
  obtain ⟨self, event⟩ := label
  dsimp only at moved equal
  by_cases acts : leader = self
  · subst acts
    have kept : event ≠ .transform := fun moves => (allowed.1 moves).1 rfl
    have same : after leader =
        { server := result.1, sent := (before leader).sent ++ result.2 } := by
      rw [equal, Function.update_self]
    simp only [log, same] at grows ⊢
    cases Server.step_books moved kept with
    | still unchanged =>
        rw [unchanged]
        exact bounded.trans grows
    | adds msg adding idle stored changed =>
        have longer : result.1.state.entries.length = (before.log leader).length + 1 := by
          rw [Server.step_entries moved, adding, Server.entriesAfter, if_pos stored,
            List.length_append, List.length_singleton]
        rw [idle, Option.toList_none, List.length_nil] at bounded
        rw [changed, longer, Option.toList_some, List.length_singleton]
        exact Nat.succ_le_succ bounded
    | added msg adding suspended changed =>
        rw [suspended, Option.toList_some, List.length_singleton] at bounded
        rw [changed, List.length_append, List.length_singleton, Option.toList_none, List.length_nil]
        exact bounded.trans grows
    | moves target node replaced known moves changed =>
        rw [changed]
        exact bounded.trans grows
    | counts target node idx replicateNum counting known thread counter changed =>
        rw [changed, List.length_set]
        exact bounded.trans grows
  · have same : after leader = before leader := by rw [equal, Function.update_of_ne acts]
    rw [same]
    exact bounded.trans grows

/-- Only an iteration of a counting loop raises the leader's commit index, to an entry it has. -/
theorem leader_commitIdx (record : OneLeaderRecord config leader term before) {event : Event}
    {result : Server × List Output}
    (taken : (before leader).server.step (config.info leader) event = some result)
    (delivered : before.Delivered leader event) :
    result.1.state.commitIdx = (before leader).server.state.commitIdx ∨
      ∃ target idx, event = .countReplica target ∧
        (before leader).server.Commits (config.info leader) target idx ∧
        result.1.state.commitIdx = idx ∧ idx < (before.log leader).length := by
  rcases Server.step_commitIdx taken with
    same | ⟨msg, rfl, -, -, -⟩ | ⟨target, idx, counts, commits, -, raised⟩
  · exact .inl same
  · exact absurd rfl (record.delivered_request delivered).1
  · obtain ⟨replicateNum, counter, -⟩ := commits.2
    have inside : idx < (before leader).server.leader.logStates.length :=
      (List.getElem?_eq_some_iff.mp counter).1
    have bounded := record.counters
    exact .inr ⟨target, idx, counts, commits, raised, by omega⟩

theorem inside_step (record : OneLeaderRecord config leader term before)
    (taken : Cluster.step config before label = some after) :
    (after leader).server.state.commitIdx < (after.log leader).length := by
  have grows := (record.logs_kept taken).1.length_le
  have inside := record.inside
  obtain ⟨-, delivered, result, moved, equal⟩ := step_eq_some.mp taken
  obtain ⟨self, event⟩ := label
  dsimp only at moved delivered equal
  by_cases acts : leader = self
  · subst acts
    have same : (after leader).server.state.commitIdx = result.1.state.commitIdx := by
      rw [equal, Function.update_self]
    rw [same]
    rcases record.leader_commitIdx moved delivered with unchanged | ⟨_, idx, -, -, raised, within⟩
    · omega
    · omega
  · have same : (after leader).server.state.commitIdx = (before leader).server.state.commitIdx := by
      rw [equal, Function.update_of_ne acts]
    omega

/-- What holds while one server leads is kept by every allowed step. -/
theorem step (record : OneLeaderRecord config leader term before)
    (taken : Cluster.step config before label = some after)
    (allowed : Allowed leader term before label after) :
    OneLeaderRecord config leader term after where
  tidy id := by
    obtain ⟨-, -, result, moved, rfl⟩ := step_eq_some.mp taken
    by_cases same : id = label.1
    · subst same
      rw [Function.update_self]
      exact (record.tidy label.1).step moved
    · rw [Function.update_of_ne same]
      exact record.tidy id
  roles := record.roles_step taken allowed
  inTerm := record.inTerm_step taken allowed
  agreement := record.agreement_step taken
  requests := record.requests_step taken
  replies := record.replies_step taken
  cursors := record.cursors_step taken allowed
  counters := record.counters_step taken allowed
  inside := record.inside_step taken

end OneLeaderRecord

end Cluster

end Quintet
