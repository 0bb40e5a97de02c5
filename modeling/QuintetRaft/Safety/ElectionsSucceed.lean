import QuintetRaft.Safety.ElectionsGoOn

/-!
# Elections can succeed

From every state that a run which elects safely comes to, the cluster can still elect a leader: a
server that gets on alone stands in a term greater than all others, and everyone votes for it.
-/

namespace Quintet

namespace Server

variable {info : ServerInfo} {srv : Server}

/-- The appending thread of the follower is not in its counting loop. -/
def Uncounted (srv : Server) (target : ServerId) : Prop :=
  ∀ node ∈ srv.leader.followerNodes target, node.appendingThread.isCounting = false

/-- What an iteration of a counting loop changes. -/
theorem countReplica_thread (info : ServerInfo) (srv : Server) (target : ServerId)
    (node : FollowerNode) (idx : Nat) :
    (srv.countReplica info target node idx).1.leader.addingLog = srv.leader.addingLog ∧
      (srv.countReplica info target node idx).1.leader.logStates.length =
        srv.leader.logStates.length ∧
      ∃ thread, (srv.countReplica info target node idx).1.leader.followerNodes =
          Function.update srv.leader.followerNodes target
            (some { node with appendingThread := thread }) ∧
        (thread.isCounting = false ∨
          thread = .counting (idx + 1) ∧ idx < srv.leader.logStates.length) := by
  unfold countReplica
  split
  · rename_i replicateNum counter
    have inside := (List.getElem?_eq_some_iff.mp counter).1
    dsimp only
    split_ifs <;> exact ⟨rfl, List.length_set, .counting (idx + 1), rfl, .inr ⟨rfl, inside⟩⟩
  · rw [applyReadyEntries_leader]
    exact ⟨rfl, rfl, .finished, rfl, .inl rfl⟩

/-- The candidate has been elected and takes office after the rest of its queue, or it counts the
votes, some of which are still to come. -/
def Polls (info : ServerInfo) (msg : RequestVoteMessage) (rest : List (ServerIdentityNo × Nat))
    (left : Nat) (srv : Server) : Prop :=
  srv.queue = (rest ++ [(.leader, msg.term)], msg.term) ∨
    srv.queue = (rest, srv.termTriggered) ∧ srv.termTriggered < msg.term ∧
      ¬ info.exceedsHalf srv.candidate.votesReceived ∧
      srv.candidate.votesReceived + left = info.srvList.length

/-- A candidacy behind a gate that has seen no term as great. -/
theorem polls_transform (gate : srv.termTriggered < incrementTerm srv.state.currentTerm)
    (servers : 1 + info.others.length = info.srvList.length) :
    (srv.transform info .candidate).1.Polls info (srv.candidacyMessage info) srv.events
      info.others.length := by
  have after : (srv.transform info .candidate).1.queue =
      (srv.signalled (srv.initNotice info .candidate)).queue := transform_queue
  by_cases alone : info.exceedsHalf 1
  · have called : srv.initNotice info .candidate =
        some (.leader, incrementTerm srv.state.currentTerm) := if_pos ⟨rfl, alone⟩
    rw [called] at after
    refine .inl (after.trans ((notify_queue _ _).trans ?_))
    rw [if_pos (.inr gate)]
    rfl
  · have silent : srv.initNotice info .candidate = none := if_neg fun both => alone both.2
    rw [silent] at after
    have counted : (srv.transform info .candidate).1.candidate.votesReceived = 1 := by
      rw [transform_candidate, if_pos rfl]
    have still : _ = srv.termTriggered := (Prod.mk.inj after).2
    refine .inr ⟨?_, ?_, ?_, ?_⟩
    · rw [after, still]
      rfl
    · rw [still]
      exact gate
    · rwa [counted]
    · rwa [counted]

theorem Polls.receiveVote {msg : RequestVoteMessage} {rest : List (ServerIdentityNo × Nat)}
    {left : Nat} (polls : srv.Polls info msg rest (left + 1)) (opened : invalidTerm < msg.term)
    (target : ServerId) :
    (srv.receiveVote info target msg (msg.term, true)).Polls info msg rest left := by
  have after : (srv.receiveVote info target msg (msg.term, true)).queue =
      (srv.signalled (srv.signal info (.receiveVote target msg (msg.term, true)))).queue :=
    receiveVote_queue
  by_cases many : info.exceedsHalf (srv.candidate.votesReceived + 1)
  · have called : srv.signal info (.receiveVote target msg (msg.term, true)) =
        some (.leader, msg.term) := if_pos ⟨rfl, many⟩
    rw [called] at after
    refine .inl (after.trans ((notify_queue _ _).trans ?_))
    rcases polls with won | ⟨same, gate, -⟩
    · obtain ⟨-, gate⟩ := Prod.mk.inj won
      rw [if_neg, won]
      rw [accepts, gate]
      omega
    · obtain ⟨events, -⟩ := Prod.mk.inj same
      rw [if_pos (.inr gate), events]
  · have silent : srv.signal info (.receiveVote target msg (msg.term, true)) = none :=
      if_neg fun both => many both.2
    rw [silent] at after
    rcases polls with won | ⟨same, gate, -, left⟩
    · exact .inl (after.trans won)
    · have counted : (srv.receiveVote info target msg (msg.term, true)).candidate.votesReceived =
          srv.candidate.votesReceived + 1 := by
        rw [receiveVote_candidate]
        exact if_pos rfl
      have still := (Prod.mk.inj after).2
      refine .inr ⟨?_, ?_, ?_, ?_⟩
      · rw [after, still]
        exact same
      · rwa [still]
      · rwa [counted]
      · omega

end Server

namespace Cluster

variable {config : ClusterConfig} {before after cluster final : Cluster} {head busy : ServerId}

theorem AloneTo.reaches (alone : AloneTo config head before after) :
    Execution.Reaches (timelyStep config) before after := by
  obtain ⟨events, -, execution⟩ := alone
  exact ⟨_, execution⟩

/-! ## A leader that is adding a command -/

/-- One server acts and stays as it is, in its term. -/
structure Stirs (config : ClusterConfig) (busy : ServerId) (before after : Cluster) : Prop where
  /-- There are such steps. -/
  run : Execution.Reaches (timelyStep config) before after
  /-- The others do nothing. -/
  others : ∀ id, id ≠ busy → after id = before id
  /-- Its term is the same. -/
  term : (after busy).server.state.currentTerm = (before busy).server.state.currentTerm
  /-- Its identity is the same. -/
  role : (after busy).server.identity = (before busy).server.identity

theorem Stirs.refl (config : ClusterConfig) (busy : ServerId) (cluster : Cluster) :
    Stirs config busy cluster cluster :=
  ⟨.refl cluster, fun _ _ => rfl, rfl, rfl⟩

theorem Stirs.trans (first : Stirs config busy before cluster)
    (second : Stirs config busy cluster after) : Stirs config busy before after where
  run := first.run.trans second.run
  others id other := (second.others id other).trans (first.others id other)
  term := second.term.trans first.term
  role := second.role.trans first.role

/-- One step of a server that keeps its term and its identity. -/
theorem exists_stirs (listed : busy ∈ config.srvList) {event : Event}
    (delivered : cluster.Delivered busy event) (untimed : event ≠ .timeout)
    {result : Server × List Output}
    (moved : (cluster busy).server.step (config.info busy) event = some result)
    (term : result.1.state.currentTerm = (cluster busy).server.state.currentTerm)
    (role : result.1.identity = (cluster busy).server.identity) :
    ∃ after, Stirs config busy cluster after ∧ (after busy).server = result.1 := by
  obtain ⟨after, taken, others, acting⟩ :=
    exists_step listed delivered (fun fires => absurd fires untimed) moved
  refine ⟨after, ⟨Execution.reaches_of_step taken, others, ?_, ?_⟩, ?_⟩
  · rw [acting]
    exact term
  · rw [acting]
    exact role
  · rw [acting]

/-- What a counting loop leaves alone. -/
structure CountedOn (config : ClusterConfig) (busy : ServerId) (before after : Cluster) : Prop
    extends Stirs config busy before after where
  /-- The command that is being added. -/
  adding : (after busy).server.leader.addingLog = (before busy).server.leader.addingLog
  /-- The number of counters. -/
  counters : (after busy).server.leader.logStates.length =
    (before busy).server.leader.logStates.length
  /-- The threads that do not count. -/
  uncounted : ∀ target, (before busy).server.Uncounted target → (after busy).server.Uncounted target

theorem CountedOn.refl (config : ClusterConfig) (busy : ServerId) (cluster : Cluster) :
    CountedOn config busy cluster cluster :=
  ⟨.refl config busy cluster, rfl, rfl, fun _ uncounted => uncounted⟩

theorem CountedOn.trans (first : CountedOn config busy before cluster)
    (second : CountedOn config busy cluster after) : CountedOn config busy before after :=
  ⟨first.toStirs.trans second.toStirs, second.adding.trans first.adding,
    second.counters.trans first.counters,
    fun target uncounted => second.uncounted target (first.uncounted target uncounted)⟩

/-- One iteration of a counting loop, or its end. -/
theorem exists_iteration (listed : busy ∈ config.srvList) {target : ServerId} {node : FollowerNode}
    {idx : Nat} (known : (cluster busy).server.leader.followerNodes target = some node)
    (counting : node.appendingThread = .counting idx) :
    ∃ after, CountedOn config busy cluster after ∧
      ((after busy).server.Uncounted target ∨
        idx < (cluster busy).server.leader.logStates.length ∧
          ∃ changed, (after busy).server.leader.followerNodes target = some changed ∧
            changed.appendingThread = .counting (idx + 1)) := by
  have moved : (cluster busy).server.step (config.info busy) (.countReplica target) = _ :=
    Server.step_countReplica.mpr ⟨node, idx, known, counting, rfl⟩
  have delivered : cluster.Delivered busy (.countReplica target) := trivial
  obtain ⟨after, stirs, acting⟩ := exists_stirs listed delivered (by simp) moved
    Server.countReplica_state.1 (Server.step_identity moved (by simp))
  obtain ⟨adding, counters, thread, nodes, outcome⟩ :=
    Server.countReplica_thread (config.info busy) (cluster busy).server target node idx
  rw [← acting] at adding counters nodes
  have own : (after busy).server.leader.followerNodes target =
      some { node with appendingThread := thread } := by
    rw [nodes, Function.update_self]
  refine ⟨after, ⟨stirs, adding, counters, fun other uncounted => ?_⟩, ?_⟩
  · have apart : other ≠ target := by
      rintro rfl
      have idle := uncounted node known
      simp [counting, AppendingThread.isCounting] at idle
    intro found member
    rw [nodes, Function.update_of_ne apart] at member
    exact uncounted found member
  · rcases outcome with ended | ⟨rfl, inside⟩
    · refine .inl fun found member => ?_
      rw [own] at member
      obtain rfl := Option.some.inj member
      exact ended
    · exact .inr ⟨inside, _, own, rfl⟩

/-- A counting loop comes to its end. -/
theorem exists_counted (listed : busy ∈ config.srvList) {target : ServerId} {node : FollowerNode}
    {idx left : Nat} (known : (cluster busy).server.leader.followerNodes target = some node)
    (counting : node.appendingThread = .counting idx)
    (enough : (cluster busy).server.leader.logStates.length ≤ idx + left) :
    ∃ after, CountedOn config busy cluster after ∧ (after busy).server.Uncounted target := by
  induction left generalizing cluster node idx with
  | zero =>
      obtain ⟨after, counted, ended | ⟨inside, -⟩⟩ := exists_iteration listed known counting
      · exact ⟨after, counted, ended⟩
      · omega
  | succ left ih =>
      obtain ⟨next, counted, ended | ⟨-, changed, again, goesOn⟩⟩ :=
        exists_iteration listed known counting
      · exact ⟨next, counted, ended⟩
      · have shorter : (next busy).server.leader.logStates.length ≤ idx + 1 + left := by
          have same := counted.counters
          omega
        obtain ⟨after, later, ended⟩ := ih again goesOn shorter
        exact ⟨after, counted.trans later, ended⟩

/-- All counting loops come to their ends. -/
theorem exists_uncounted (cluster : Cluster) (listed : busy ∈ config.srvList)
    (targets : List ServerId) :
    ∃ after, CountedOn config busy cluster after ∧
      ∀ target ∈ targets, (after busy).server.Uncounted target := by
  induction targets with
  | nil => exact ⟨cluster, .refl config busy cluster, by simp⟩
  | cons target targets ih =>
      obtain ⟨next, counted, ended⟩ := ih
      by_cases idle : (next busy).server.Uncounted target
      · exact ⟨next, counted, List.forall_mem_cons.mpr ⟨idle, ended⟩⟩
      · obtain ⟨node, known, counts⟩ : ∃ node ∈ (next busy).server.leader.followerNodes target,
            node.appendingThread.isCounting ≠ false := by
          simpa [Server.Uncounted] using idle
        obtain ⟨idx, counting⟩ : ∃ idx, node.appendingThread = .counting idx := by
          cases thread : node.appendingThread with
          | counting idx => exact ⟨idx, rfl⟩
          | _ => simp [thread, AppendingThread.isCounting] at counts
        obtain ⟨after, later, own⟩ :=
          exists_counted listed known counting (Nat.le_add_left _ idx)
        exact ⟨after, counted.trans later, List.forall_mem_cons.mpr
          ⟨own, fun other member => later.uncounted other (ended other member)⟩⟩

/-- A leader that is adding a command finishes. -/
theorem exists_added (cluster : Cluster) (listed : busy ∈ config.srvList) :
    ∃ after, Stirs config busy cluster after ∧ (after busy).server.leader.addingLog = none := by
  cases adding : (cluster busy).server.leader.addingLog with
  | none => exact ⟨cluster, .refl config busy cluster, adding⟩
  | some msg =>
      obtain ⟨next, counted, ended⟩ :=
        exists_uncounted cluster listed (config.info busy).others
      have moved : (next busy).server.step (config.info busy) .addLogState = _ :=
        Server.step_addLogState.mpr ⟨msg, counted.adding.trans adding, ended, rfl⟩
      have delivered : next.Delivered busy .addLogState := trivial
      obtain ⟨after, stirs, acting⟩ := exists_stirs listed delivered (by simp) moved rfl rfl
      refine ⟨after, counted.toStirs.trans stirs, ?_⟩
      rw [acting]
      rfl

/-! ## The votes -/

/-- A server in an earlier term votes for whoever asks. -/
theorem exists_vote (listed : busy ∈ config.srvList) {msg : RequestVoteMessage}
    (asked : .requestVote busy msg ∈ (cluster msg.candidateId).sent)
    (other : msg.candidateId ≠ busy) (serving : (cluster busy).server.Serving)
    (earlier : (cluster busy).server.state.currentTerm < msg.term) :
    ∃ after, Execution.Reaches (timelyStep config) cluster after ∧
      (∀ id, id ≠ busy → after id = cluster id) ∧
      (after busy).server.state.currentTerm = msg.term ∧
      .voteReply msg (msg.term, true) ∈ (after busy).sent := by
  obtain ⟨next, stirs, added⟩ := exists_added cluster listed
  have ready : (next busy).server.Serving := by
    rw [Server.Serving, stirs.role]
    exact serving
  have granted : (next busy).server.state.grants msg := .inl (by rwa [stirs.term])
  have delivered : next.Delivered busy (.rpcRequestVote msg) := by
    change _ ∈ (next msg.candidateId).sent
    rw [stirs.others _ other]
    exact asked
  have moved : (next busy).server.step (config.info busy) (.rpcRequestVote msg) = _ :=
    Server.step_rpcRequestVote.mpr ⟨added, rfl⟩
  obtain ⟨after, taken, others, acting⟩ := exists_step listed delivered (by simp) moved
  refine ⟨after, stirs.run.trans (Execution.reaches_of_step taken), ?_, ?_, ?_⟩
  · exact fun id apart => (others id apart).trans (stirs.others id apart)
  · rw [acting]
    simp [Server.rpcRequestVote_state ready]
  · rw [acting]
    simp [Server.rpcRequestVote_reply ready, granted]

/-- A candidate that has asked everyone, and those who have not answered yet. -/
structure Collecting (config : ClusterConfig) (head : ServerId) (msg : RequestVoteMessage)
    (rest : List (ServerIdentityNo × Nat)) (targets : List ServerId) (cluster : Cluster) :
    Prop where
  /-- It is in the term of its candidacy. -/
  own : (cluster head).server.state.currentTerm = msg.term
  /-- It does not lead. -/
  role : (cluster head).server.identity ≠ .leader
  /-- Nobody is in a greater term. -/
  bounded : ∀ id, (cluster id).server.state.currentTerm ≤ msg.term
  /-- They have been asked. -/
  asked : ∀ target ∈ targets, .requestVote target msg ∈ (cluster head).sent
  /-- Their answers are waited for. -/
  requests : ∀ target ∈ targets, (target, msg) ∈ (cluster head).server.candidate.requests
  /-- They will vote for it. -/
  willing : ∀ target ∈ targets, target ∈ config.srvList ∧ target ≠ head ∧
    (cluster target).server.Serving ∧ (cluster target).server.state.currentTerm < msg.term
  /-- It has been elected, or it counts the votes. -/
  polls : (cluster head).server.Polls (config.info head) msg rest targets.length

/-- One vote more. -/
theorem Collecting.step {msg : RequestVoteMessage} {rest : List (ServerIdentityNo × Nat)}
    {target : ServerId} {targets : List ServerId}
    (collecting : Collecting config head msg rest (target :: targets) cluster)
    (listed : head ∈ config.srvList) (candidate : msg.candidateId = head)
    (fresh : target ∉ targets) :
    ∃ after, Execution.Reaches (timelyStep config) cluster after ∧
      Collecting config head msg rest targets after := by
  obtain ⟨member, other, serving, earlier⟩ := collecting.willing target List.mem_cons_self
  have asked : .requestVote target msg ∈ (cluster msg.candidateId).sent :=
    candidate ▸ collecting.asked target List.mem_cons_self
  obtain ⟨next, reached, others, voted, answered⟩ :=
    exists_vote member asked (candidate ▸ other.symm) serving earlier
  have same : next head = cluster head := others head other.symm
  have requested : (target, msg) ∈ (next head).server.candidate.requests :=
    same ▸ collecting.requests target List.mem_cons_self
  have moved : (next head).server.step (config.info head)
      (.receiveVote target msg (msg.term, true)) = _ :=
    Server.step_receiveVote.mpr ⟨requested, rfl⟩
  have delivered : next.Delivered head (.receiveVote target msg (msg.term, true)) := answered
  obtain ⟨after, taken, idle, acting⟩ := exists_step listed delivered (by simp) moved
  have term : (after head).server.state.currentTerm = msg.term := by
    rw [acting]
    exact (Server.step_currentTerm moved).trans (same ▸ collecting.own)
  have kept : ∀ id, id ≠ head → id ≠ target → after id = cluster id :=
    fun id left right => (idle id left).trans (others id right)
  have apart : ∀ later ∈ targets, later ≠ target := fun later inside equal =>
    fresh (equal ▸ inside)
  refine ⟨after, reached.trans (Execution.reaches_of_step taken), ?_⟩
  exact
    { own := term
      role := by
        rw [acting]
        exact (Server.step_identity moved (by simp)).trans_ne (same ▸ collecting.role)
      bounded := fun id => by
        by_cases left : id = head
        · rw [left, term]
        by_cases right : id = target
        · rw [right, idle target other, voted]
        · rw [kept id left right]
          exact collecting.bounded id
      asked := fun later inside => by
        rw [acting, same]
        exact List.mem_append_left _ (collecting.asked later (List.mem_cons_of_mem _ inside))
      requests := fun later inside => by
        rw [acting, same]
        rw [Server.receiveVote_candidate]
        have waits := collecting.requests later (List.mem_cons_of_mem _ inside)
        refine (List.mem_erase_of_ne fun equal => ?_).mpr waits
        exact apart later inside (Prod.mk.inj equal).1
      willing := fun later inside => by
        have before := collecting.willing later (List.mem_cons_of_mem _ inside)
        rwa [kept later before.2.1 (apart later inside)]
      polls := by
        rw [acting, same]
        exact collecting.polls.receiveVote ((Nat.zero_le _).trans_lt earlier) target }

/-- Everyone votes. -/
theorem exists_polled {msg : RequestVoteMessage} {rest : List (ServerIdentityNo × Nat)}
    {targets : List ServerId} (collecting : Collecting config head msg rest targets cluster)
    (listed : head ∈ config.srvList) (candidate : msg.candidateId = head)
    (distinct : targets.Nodup) :
    ∃ after, Execution.Reaches (timelyStep config) cluster after ∧
      Collecting config head msg rest [] after := by
  induction targets generalizing cluster with
  | nil => exact ⟨cluster, .refl cluster, collecting⟩
  | cons target targets ih =>
      obtain ⟨fresh, distinct⟩ := List.nodup_cons.mp distinct
      obtain ⟨next, first, collecting⟩ := collecting.step listed candidate fresh
      obtain ⟨after, second, collecting⟩ := ih collecting distinct
      exact ⟨after, first.trans second, collecting⟩

/-- With all votes the candidate has been elected. -/
theorem Collecting.elected {msg : RequestVoteMessage} {rest : List (ServerIdentityNo × Nat)}
    (collecting : Collecting config head msg rest [] cluster) (listed : head ∈ config.srvList) :
    (cluster head).server.events = rest ++ [(.leader, msg.term)] := by
  rcases collecting.polls with won | ⟨-, -, few, all⟩
  · exact (Prod.mk.inj won).1
  · have size : 0 < config.srvList.length := List.length_pos_of_mem listed
    refine absurd ?_ few
    change config.srvList.length / 2 < _
    change _ + 0 = config.srvList.length at all
    omega

/-- The others are all servers but one. -/
theorem others_length (listed : head ∈ config.srvList) :
    1 + (config.info head).others.length = config.srvList.length := by
  have same : (config.info head).others = config.srvList.erase head := by
    rw [config.nodup.erase_eq_filter]
    refine List.filter_congr fun id _ => ?_
    by_cases equal : id = head <;> simp [ClusterConfig.info, equal]
  rw [same, List.length_erase_of_mem listed]
  have size := List.length_pos_of_mem listed
  omega

/-- A server that can go on alone stands, and asks everyone for a vote. -/
theorem exists_collecting {top : Nat} (listed : head ∈ config.srvList)
    (role : (cluster head).server.identity ≠ .leader) (ready : (cluster head).server.Ready top)
    {term : Nat} {rest : List (ServerIdentityNo × Nat)}
    (queue : (cluster head).server.events = (.candidate, term) :: rest)
    (greatest : ∀ id, (cluster id).server.state.currentTerm ≤ top)
    (serving : ∀ id, (cluster id).server.Serving) (small : top + 1 < termModulus) :
    ∃ after msg, msg.candidateId = head ∧ msg.term = top + 1 ∧
      timelyStep config cluster (head, .transform) = some after ∧
      Collecting config head msg rest (config.info head).others after := by
  have current := ready.firm.term
  let standing : Server := { (cluster head).server with events := rest }
  have moved : (cluster head).server.step (config.info head) .transform =
      some (standing.transform (config.info head) .candidate) :=
    Server.step_transform.mpr
      ⟨.candidate, term, rest, queue, fun leads => absurd leads role, rfl⟩
  have delivered : cluster.Delivered head .transform := trivial
  obtain ⟨after, taken, others, acting⟩ := exists_step listed delivered (by simp) moved
  have opens : incrementTerm (cluster head).server.state.currentTerm = top + 1 := by
    rw [current]
    exact Nat.mod_eq_of_lt small
  have own : (after head).server.state.currentTerm = top + 1 := by
    rw [acting]
    change (standing.transform (config.info head) .candidate).1.state.currentTerm = _
    rw [Server.transform_state, if_pos rfl]
    exact opens
  refine ⟨after, standing.candidacyMessage (config.info head), rfl, opens, taken, ?_⟩
  exact
    { own := own.trans opens.symm
      role := by
        rw [acting]
        change (standing.transform (config.info head) .candidate).1.identity ≠ _
        rw [Server.transform_identity]
        simp
      bounded := fun id => by
        change _ ≤ incrementTerm (cluster head).server.state.currentTerm
        rw [opens]
        by_cases same : id = head
        · rw [same, own]
        · rw [others id same]
          exact (greatest id).trans (Nat.le_succ top)
      asked := fun target member => by
        rw [acting]
        refine List.mem_append_right _ ?_
        rw [Server.transform_output, if_pos rfl]
        exact List.mem_cons_of_mem _ (List.mem_map_of_mem member)
      requests := fun target member => by
        rw [acting]
        change _ ∈ (standing.transform (config.info head) .candidate).1.candidate.requests
        rw [Server.transform_candidate, if_pos rfl]
        exact List.mem_append_right _ (List.mem_map.mpr ⟨target, member, rfl⟩)
      willing := fun target member => by
        obtain ⟨inside, apart⟩ := ServerInfo.mem_others.mp member
        rw [others target apart]
        refine ⟨inside, apart, serving target, ?_⟩
        change _ < incrementTerm (cluster head).server.state.currentTerm
        rw [opens]
        exact Nat.lt_succ_of_le (greatest target)
      polls := by
        rw [acting]
        have gate : standing.termTriggered < incrementTerm standing.state.currentTerm :=
          opens ▸ Nat.lt_succ_of_le ready.gate
        exact Server.polls_transform gate (others_length listed) }

/-! ## Taking office -/

/-- Nobody else acts. -/
theorem AloneTo.others (alone : AloneTo config head cluster final) (id : ServerId)
    (other : id ≠ head) : final id = cluster id := by
  obtain ⟨events, -, execution⟩ := alone
  induction events generalizing cluster with
  | nil =>
      obtain rfl : cluster = final := Option.some.inj execution
      rfl
  | cons event events ih =>
      simp only [List.map_cons, Execution.run] at execution
      obtain ⟨next, taken, later⟩ := Option.bind_eq_some_iff.mp execution
      obtain ⟨-, -, _, -, rfl⟩ := step_eq_some.mp (timelyStep_eq_some.mp taken).2
      rw [ih later, Function.update_of_ne other]

/-- A queued leadership is reached. -/
theorem exists_office (listed : head ∈ config.srvList)
    {earlier later : List (ServerIdentityNo × Nat)} {term : Nat}
    (queue : (cluster head).server.events = earlier ++ (.leader, term) :: later)
    (role : (cluster head).server.identity ≠ .leader) (staffed : (cluster head).server.Staffed)
    (small : (cluster head).server.state.currentTerm + earlier.length < termModulus) :
    ∃ final, AloneTo config head cluster final ∧ (final head).server.LeadsOwnTerm ∧
      (cluster head).server.state.currentTerm ≤ (final head).server.state.currentTerm := by
  induction earlier generalizing cluster later with
  | nil =>
      obtain ⟨final, result, taken, -, rfl, acting⟩ := exists_transform listed role queue
      refine ⟨final, .head (.inr rfl) taken (.refl config head final), ?_, ?_⟩
      · rw [acting]
        exact Server.leadsOwnTerm_transform
      · rw [acting, Server.transform_state, if_neg (by simp)]
  | cons request earlier ih =>
      obtain ⟨target, asked⟩ := request
      have regular := staffed.requests (target, asked) (queue ▸ List.mem_cons_self)
      obtain ⟨next, result, taken, moved, rfl, acting⟩ := exists_transform listed role queue
      have identity : (next head).server.identity = target := by
        rw [acting, Server.transform_identity]
      have serves := acting ▸ staffed.step moved
      have rises : (next head).server.state.currentTerm =
            (cluster head).server.state.currentTerm ∨
          (next head).server.state.currentTerm =
            (cluster head).server.state.currentTerm + 1 := by
        rw [acting, Server.transform_state]
        split_ifs
        · refine .inr (Nat.mod_eq_of_lt ?_)
          rw [List.length_cons] at small
          exact lt_of_le_of_lt (by simp) small
        · exact .inl rfl
      obtain ⟨added, queue⟩ : ∃ added,
          (next head).server.events = earlier ++ (.leader, term) :: added := by
        rw [acting, Server.transform, Server.enter_events, Server.leave_events]
        exact ⟨_, List.append_assoc earlier ((.leader, term) :: later) _⟩
      by_cases leads : target = .leader
      · refine ⟨next, .head (.inr rfl) taken (.refl config head next), ?_, by omega⟩
        subst leads
        rw [acting]
        exact Server.leadsOwnTerm_transform
      · rw [List.length_cons] at small
        obtain ⟨final, alone, office, upTo⟩ :=
          ih queue (identity ▸ leads) serves (by omega)
        exact ⟨final, .head (.inr rfl) taken alone, office, by omega⟩

/-! ## An election that succeeds -/

/-- The cluster can come to a state in which a server leads in the greatest term. -/
def Electable (config : ClusterConfig) (cluster : Cluster) : Prop :=
  ∃ labels, ∃ final ∈ Execution.run (timelyStep config) labels cluster, ∃ head ∈ config.srvList,
    (final head).server.LeadsOwnTerm ∧
      ∀ id, (final id).server.state.currentTerm ≤ (final head).server.state.currentTerm

theorem staffed_of_reaches (staffed : ∀ id, (before id).server.Staffed)
    (reached : Execution.Reaches (timelyStep config) before after) :
    ∀ id, (after id).server.Staffed := by
  have preserved : ∀ earlier label later, (∀ id, (earlier id).server.Staffed) →
      timelyStep config earlier label = some later → ∀ id, (later id).server.Staffed :=
    fun earlier label later staffed taken =>
      forall_step (timelyStep_eq_some.mp taken).2 (fun _ node => node.server.Staffed)
        (fun id _ => staffed id)
        fun _ _ moved => (staffed label.1).step moved
  exact reached.preserves preserved staffed

theorem ElectionsRecord.electable (record : ElectionsRecord config cluster)
    (small : ∀ id ∈ config.srvList, (cluster id).server.state.currentTerm +
      (cluster id).server.events.length + 1 < termModulus) : Electable config cluster := by
  obtain ⟨top, frontier, head, listed, firm⟩ := record.head
  have greatest : ∀ id, (cluster id).server.state.currentTerm ≤ top :=
    fun id => (frontier.within id).term
  have room := small head listed
  rw [firm.term] at room
  obtain ⟨standing, alone, outcome⟩ := exists_standing listed rfl (record.ready frontier firm)
  have others := alone.others
  rcases outcome with ⟨leads, upTo⟩ | ⟨role, ready, term, rest, queue, short⟩
  · obtain ⟨labels, execution⟩ := alone.reaches
    refine ⟨labels, standing, execution, head, listed, leads, fun id => ?_⟩
    by_cases same : id = head
    · rw [same]
    · rw [others id same]
      exact (greatest id).trans upTo
  · have staffed := staffed_of_reaches record.staffed alone.reaches
    have bounded : ∀ id, (standing id).server.state.currentTerm ≤ top := fun id => by
      by_cases same : id = head
      · rw [same, ready.firm.term]
      · rw [others id same]
        exact greatest id
    obtain ⟨asking, msg, candidate, opens, taken, collecting⟩ :=
      exists_collecting listed role ready queue bounded (fun id => (staffed id).role) (by omega)
    obtain ⟨elected, polled, collecting⟩ := exists_polled collecting listed candidate
      (ServerInfo.others_nodup config.nodup)
    have reached := alone.reaches.trans ((Execution.reaches_of_step taken).trans polled)
    have own := collecting.own
    obtain ⟨final, office, leads, upTo⟩ := exists_office listed (collecting.elected listed)
      collecting.role (staffed_of_reaches record.staffed reached head) (by omega)
    obtain ⟨labels, execution⟩ := reached.trans office.reaches
    refine ⟨labels, final, execution, head, listed, leads, fun id => ?_⟩
    by_cases same : id = head
    · rw [same]
    · rw [office.others id same]
      exact ((collecting.bounded id).trans own.ge).trans upTo

/-- Wherever a run that elects safely has come to, a leader can still be elected. -/
theorem electable_of_electsSafely (config : ClusterConfig) (nonempty : config.srvList ≠ [])
    {labels : List (ServerId × Event)} {final : Cluster}
    (execution : Execution.run (step config) labels init = some final)
    (safe : Execution.Along (step config) ElectsSafely labels init)
    (small : ∀ id ∈ config.srvList, (final id).server.state.currentTerm +
      (final id).server.events.length + 1 < termModulus) : Electable config final :=
  (electionsRecord_of_run nonempty execution safe).electable small

/-- The timer of server 3 does nothing any more, and the cluster can elect a leader. -/
theorem electable_steppingDown :
    ∃ final ∈ Execution.run (step trio) (firstElection ++ steppingDown) init,
      ¬ (final (localServer 3)).server.Alert ∧ Electable trio final := by
  have enabled : ∃ final ∈ Execution.run (step trio) (firstElection ++ steppingDown) init,
      ¬ (final (localServer 3)).server.Alert ∧
        ∀ id ∈ trio.srvList, (final id).server.state.currentTerm +
          (final id).server.events.length + 1 < termModulus := by
    decide +kernel
  obtain ⟨final, execution, ignored, small⟩ := enabled
  exact ⟨final, execution, ignored,
    electable_of_electsSafely trio (by decide) execution (by decide +kernel) small⟩

end Cluster

end Quintet
