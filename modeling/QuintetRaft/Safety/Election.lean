import QuintetRaft.Library.Majority
import QuintetRaft.Model.Threads
import QuintetRaft.Safety.Rpc
import QuintetRaft.Safety.Voting

/-!
# Elections

A candidate that asks to become leader has counted the votes of a majority.  It leads in the term
it won as long as the term has not changed when its transformation runs, and when it builds its
messages.  Together with one vote per term this leaves one leader for a term.
-/

namespace Quintet

/-- A majority, the server itself included, has voted for it in a term. -/
def Elected (info : ServerInfo) (voted : ServerId → Nat → Prop) (term : Nat) : Prop :=
  Majority info.srvList (voted · term) ∧ voted info.localId term

/-- The votes a candidate has counted belong to distinct servers that are no longer asked. -/
structure Tally (info : ServerInfo) (voted : ServerId → Nat → Prop) (candidate : CandidateImpl)
    (term : Nat) (counted : List ServerId) : Prop where
  /-- Nobody is counted twice, or counted and still asked. -/
  distinct : (counted ++ candidate.requests.map Prod.fst).Nodup
  /-- The counted servers belong to the cluster. -/
  inside : counted ⊆ info.srvList
  /-- The counted servers have voted. -/
  votes : ∀ voter ∈ counted, voted voter term
  /-- There are at least as many of them as counted votes. -/
  number : candidate.votesReceived ≤ counted.length
  /-- The servers still asked belong to the cluster and have been asked in this term. -/
  asked : ∀ request ∈ candidate.requests, request.1 ∈ info.srvList ∧
    request.2.term = term ∧ request.2.candidateId = info.localId
  /-- Whoever asks for votes has its own. -/
  own : candidate.requests ≠ [] → voted info.localId term

/-- The way of one server to leadership, given who has voted for it. -/
structure Campaign (info : ServerInfo) (voted : ServerId → Nat → Prop) (srv : Server) :
    Prop where
  /-- The votes of the latest candidacy are accounted for. -/
  tally : ∃ term counted, Tally info voted srv.candidate term counted
  /-- A transformation into the leader waits only after an election. -/
  queued : ∀ term, (ServerIdentityNo.leader, term) ∈ srv.events → Elected info voted term
  /-- A leader took office in a term it was elected in. -/
  office : srv.identity = .leader → Elected info voted srv.leader.initTerm

section Campaign

variable {info : ServerInfo} {voted voted' : ServerId → Nat → Prop} {srv : Server}
  {event : Event} {result : Server × List Output}

theorem Elected.mono {term : Nat} (elected : Elected info voted term)
    (more : ∀ voter term, voted voter term → voted' voter term) : Elected info voted' term :=
  ⟨elected.1.mono fun voter => more voter term, more _ _ elected.2⟩

theorem Tally.mono {candidate : CandidateImpl} {term : Nat} {counted : List ServerId}
    (tally : Tally info voted candidate term counted)
    (more : ∀ voter term, voted voter term → voted' voter term) :
    Tally info voted' candidate term counted :=
  { tally with
    votes := fun voter member => more _ _ (tally.votes voter member)
    own := fun asks => more _ _ (tally.own asks) }

theorem Campaign.mono (campaign : Campaign info voted srv)
    (more : ∀ voter term, voted voter term → voted' voter term) : Campaign info voted' srv where
  tally := by
    obtain ⟨term, counted, tally⟩ := campaign.tally
    exact ⟨term, counted, tally.mono more⟩
  queued term member := (campaign.queued term member).mono more
  office role := (campaign.office role).mono more

theorem campaign_init : Campaign info voted {} where
  tally := ⟨0, [], by simp, by simp, by simp, by simp, by simp, by simp⟩
  queued := by simp
  office := by simp

/-- The tally of a fresh candidacy: the server's own vote. -/
theorem tally_fresh (distinct : info.srvList.Nodup) (listed : info.localId ∈ info.srvList)
    (own : voted info.localId (incrementTerm srv.state.currentTerm)) :
    Tally info voted
      { votesReceived := 1, requests := info.others.map (·, srv.candidacyMessage info) }
      (incrementTerm srv.state.currentTerm) [info.localId] where
  distinct := by
    have names : (info.others.map (·, srv.candidacyMessage info)).map Prod.fst = info.others := by
      simp [Function.comp_def]
    rw [names, List.singleton_append, List.nodup_cons]
    exact ⟨fun member => (ServerInfo.mem_others.mp member).2 rfl, ServerInfo.others_nodup distinct⟩
  inside := by simpa using listed
  votes := by simpa using own
  number := Nat.le_refl 1
  asked request member := by
    obtain ⟨target, other, rfl⟩ := List.mem_map.mp member
    exact ⟨(ServerInfo.mem_others.mp other).1, rfl, rfl⟩
  own _ := own

/-- An answered request leaves the tally. -/
theorem Tally.drop {candidate : CandidateImpl} {term : Nat} {counted : List ServerId}
    {request : ServerId × RequestVoteMessage} (tally : Tally info voted candidate term counted)
    (answered : request ∈ candidate.requests) :
    Tally info voted { candidate with requests := candidate.requests.erase request } term
      counted where
  distinct := by
    refine tally.distinct.sublist ?_
    exact (List.Sublist.refl counted).append ((List.erase_sublist ..).map Prod.fst)
  inside := tally.inside
  votes := tally.votes
  number := tally.number
  asked _ member := tally.asked _ (List.mem_of_mem_erase member)
  own _ := tally.own (List.ne_nil_of_mem answered)

/-- A granted request moves its server from the asked to the counted. -/
theorem Tally.count {candidate : CandidateImpl} {term : Nat} {counted : List ServerId}
    {target : ServerId} {msg : RequestVoteMessage}
    (tally : Tally info voted candidate term counted)
    (answered : (target, msg) ∈ candidate.requests) (vote : voted target term) :
    Tally info voted
      { votesReceived := candidate.votesReceived + 1
        requests := candidate.requests.erase (target, msg) }
      term (target :: counted) where
  distinct := by
    have moved : (counted ++ candidate.requests.map Prod.fst).Perm
        (target :: (counted ++ (candidate.requests.erase (target, msg)).map Prod.fst)) := by
      have front := (List.perm_cons_erase answered).map Prod.fst
      exact (front.append_left counted).trans List.perm_middle
    exact moved.nodup tally.distinct
  inside := List.cons_subset.mpr ⟨(tally.asked _ answered).1, tally.inside⟩
  votes := List.forall_mem_cons.mpr ⟨vote, tally.votes⟩
  number := Nat.succ_le_succ tally.number
  asked _ member := tally.asked _ (List.mem_of_mem_erase member)
  own _ := tally.own (List.ne_nil_of_mem answered)

/-- A tally that reaches a majority elects. -/
theorem Tally.elected {candidate : CandidateImpl} {term : Nat} {counted : List ServerId}
    (tally : Tally info voted candidate term counted) (own : voted info.localId term)
    (many : info.exceedsHalf candidate.votesReceived) : Elected info voted term :=
  ⟨⟨counted, tally.distinct.of_append_left, tally.inside, tally.votes,
    Nat.lt_of_lt_of_le many tally.number⟩, own⟩

theorem Campaign.tally_step (campaign : Campaign info voted srv) (tidy : srv.Tidy)
    (distinct : info.srvList.Nodup) (listed : info.localId ∈ info.srvList)
    (taken : srv.step info event = some result)
    (own : ∀ term, Output.candidacy term ∈ result.2 → voted info.localId term)
    (granted : ∀ target msg, event = .receiveVote target msg (msg.term, true) →
      msg.candidateId = info.localId → voted target msg.term) :
    ∃ term counted, Tally info voted result.1.candidate term counted := by
  obtain ⟨term, counted, tally⟩ := campaign.tally
  cases event with
  | transform =>
      obtain ⟨target, queued, rest, queue, -, rfl⟩ := Server.step_transform.mp taken
      have tidyRest : Server.Tidy { srv with events := rest } := ⟨tidy.requests, tidy.nodes⟩
      rw [Server.transform_candidate]
      split_ifs with stands
      · subst stands
        rw [tidyRest.leave_requests, List.nil_append]
        refine ⟨_, _, tally_fresh distinct listed (own _ ?_)⟩
        rw [Server.transform_output, if_pos rfl]
        exact List.mem_cons_self
      · have idle : (Server.leave { srv with events := rest }).candidate.requests = [] :=
          tidyRest.leave_requests
        refine ⟨term, counted, ?_, tally.inside, tally.votes, ?_, ?_, ?_⟩
        · simpa [idle] using tally.distinct.of_append_left
        · rw [Server.leave_votesReceived]
          exact tally.number
        · simp [idle]
        · simp [idle]
  | receiveVote target msg reply =>
      obtain ⟨answered, rfl⟩ := Server.step_receiveVote.mp taken
      rw [Server.receiveVote_candidate]
      split_ifs with counts
      · subst counts
        obtain ⟨-, sameTerm, self⟩ := tally.asked _ answered
        have vote := granted target msg rfl self
        rw [sameTerm] at vote
        exact ⟨term, target :: counted, tally.count answered vote⟩
      · exact ⟨term, counted, tally.drop answered⟩
  | _ =>
      rw [(Server.step_sameRole taken trivial).candidate]
      exact ⟨term, counted, tally⟩

theorem Campaign.queued_step (campaign : Campaign info voted srv)
    (listed : info.localId ∈ info.srvList) (taken : srv.step info event = some result)
    (own : ∀ term, Output.candidacy term ∈ result.2 → voted info.localId term)
    (granted : ∀ target msg, event = .receiveVote target msg (msg.term, true) →
      msg.candidateId = info.localId → voted target msg.term)
    {term : Nat} (member : (ServerIdentityNo.leader, term) ∈ result.1.events) :
    Elected info voted term := by
  rcases Server.step_events_leader taken member with
    earlier | ⟨rfl, stands, alone, rfl⟩ | ⟨target, msg, rfl, rfl, many⟩
  · exact campaign.queued term earlier
  · obtain ⟨target, queued, rest, queue, -, rfl⟩ := Server.step_transform.mp taken
    obtain rfl : target = .candidate := by simpa [Server.nextTarget, queue] using stands
    have vote : voted info.localId (incrementTerm srv.state.currentTerm) := own _ (by
      rw [Server.transform_output, if_pos rfl]
      exact List.mem_cons_self)
    exact ⟨⟨[info.localId], List.nodup_singleton _, by simpa using listed, by simpa using vote,
      alone⟩, vote⟩
  · obtain ⟨answered, -⟩ := Server.step_receiveVote.mp taken
    obtain ⟨term, counted, tally⟩ := campaign.tally
    obtain ⟨-, sameTerm, self⟩ := tally.asked _ answered
    have vote := granted target msg rfl self
    rw [sameTerm] at vote ⊢
    exact (tally.count answered vote).elected (tally.own (List.ne_nil_of_mem answered)) many

/-- A server that becomes leader only in the term it won keeps its campaign in order. -/
theorem Campaign.step (campaign : Campaign info voted srv) (tidy : srv.Tidy)
    (distinct : info.srvList.Nodup) (listed : info.localId ∈ info.srvList)
    (taken : srv.step info event = some result) (takesWon : ¬ srv.TakesOtherTerm event)
    (own : ∀ term, Output.candidacy term ∈ result.2 → voted info.localId term)
    (granted : ∀ target msg, event = .receiveVote target msg (msg.term, true) →
      msg.candidateId = info.localId → voted target msg.term) :
    Campaign info voted result.1 where
  tally := campaign.tally_step tidy distinct listed taken own granted
  queued _ member := campaign.queued_step listed taken own granted member
  office role := by
    by_cases moves : event = .transform
    · subst moves
      obtain ⟨target, queued, rest, queue, -, rfl⟩ := Server.step_transform.mp taken
      obtain rfl : target = .leader := by simpa [Server.transform_identity] using role
      have won : queued = srv.state.currentTerm := by
        by_contra other
        exact takesWon ⟨rfl, (.leader, queued), by simp [queue], rfl, other⟩
      have elected := campaign.queued queued (by simp [queue])
      rw [Server.transform_leader, if_pos rfl]
      simpa [Server.leaderInit, won] using elected
    · rw [Server.step_identity taken moves] at role
      rw [(Server.step_office taken moves).1]
      exact campaign.office role

end Campaign

namespace Cluster

variable {config : ClusterConfig} {cluster before after : Cluster} {label : ServerId × Event}

/-- A server has voted for a candidate in a term. -/
def voted (cluster : Cluster) (candidate voter : ServerId) (term : Nat) : Prop :=
  Voted voter (cluster voter).sent term candidate

instance (candidate voter : ServerId) (term : Nat) :
    Decidable (cluster.voted candidate voter term) :=
  inferInstanceAs (Decidable (Voted _ _ _ _))

theorem voted_mono (taken : step config before label = some after) {candidate voter : ServerId}
    {term : Nat} (vote : before.voted candidate voter term) :
    after.voted candidate voter term := by
  obtain ⟨output, member, counts⟩ := vote
  exact ⟨output, sent_mono taken member, counts⟩

/-- The servers of a cluster are distinct, so an election is decided by counting. -/
instance decidableElected (config : ClusterConfig) (self : ServerId)
    (voted : ServerId → Nat → Prop) [∀ voter term, Decidable (voted voter term)] (term : Nat) :
    Decidable (Elected (config.info self) voted term) :=
  decidable_of_iff
    (config.srvList.length / 2 < config.srvList.countP (fun voter => decide (voted voter term)) ∧
      voted self term)
    (and_congr_left fun _ => (Majority.iff_countP config.nodup).symm)

/-- A server leads and sends only in the term it was elected in. -/
def LeadsElected (config : ClusterConfig) (before : Cluster) (label : ServerId × Event)
    (_ : Cluster) : Prop :=
  let srv := (before label.1).server
  (label.2 = .transform → srv.nextTarget = some .leader →
      Elected (config.info label.1) (before.voted label.1) srv.state.currentTerm) ∧
    (label.2.sending ≠ none →
      Elected (config.info label.1) (before.voted label.1) srv.state.currentTerm)

instance (before : Cluster) (label : ServerId × Event) (after : Cluster) :
    Decidable (LeadsElected config before label after) :=
  inferInstanceAs (Decidable (_ ∧ _))

/-- The term has not changed between the election and the transformation, nor since. -/
def LeadsWonTerm (before : Cluster) (label : ServerId × Event) (_ : Cluster) : Prop :=
  ¬ (before label.1).server.TakesOtherTerm label.2 ∧
    ¬ (before label.1).server.SendsOtherTerm label.2

instance (before : Cluster) (label : ServerId × Event) (after : Cluster) :
    Decidable (LeadsWonTerm before label after) :=
  inferInstanceAs (Decidable (_ ∧ _))

/-- What holds of all servers while every one leads only in the term it won. -/
structure ElectionRecord (config : ClusterConfig) (cluster : Cluster) : Prop where
  /-- Only servers of the cluster act. -/
  outside : ∀ id, id ∉ config.srvList → cluster id = {}
  /-- Private data belongs to the current identity. -/
  tidy : ∀ id, (cluster id).server.Tidy
  /-- Leaders have been elected. -/
  campaign : ∀ id, Campaign (config.info id) (cluster.voted id) (cluster id).server

theorem electionRecord_init : ElectionRecord config init where
  outside _ _ := rfl
  tidy _ := Server.tidy_init
  campaign _ := campaign_init

/-- A vote reply delivered to the candidate is a vote for it. -/
theorem voted_of_delivered {self : ServerId} {event : Event}
    (delivered : cluster.Delivered self event) (target : ServerId) (msg : RequestVoteMessage)
    (granted : event = .receiveVote target msg (msg.term, true)) (own : msg.candidateId = self) :
    cluster.voted self target msg.term := by
  subst granted
  exact ⟨.voteReply msg (msg.term, true), delivered, rfl, own⟩

/-- A step of a server that takes office only in the term it won keeps the record. -/
theorem ElectionRecord.step (record : ElectionRecord config before)
    (taken : Cluster.step config before label = some after)
    (won : ¬ (before label.1).server.TakesOtherTerm label.2) : ElectionRecord config after := by
  have more : ∀ id voter term, before.voted id voter term → after.voted id voter term :=
    fun _ _ _ => voted_mono taken
  have listed : label.1 ∈ config.srvList := (step_eq_some.mp taken).1
  refine ⟨?_, ?_, ?_⟩
  · exact forall_step taken (fun id node => id ∉ config.srvList → node = {})
      (fun id _ => record.outside id) fun _ _ _ absent => absurd listed absent
  · exact forall_step taken (fun _ node => node.server.Tidy) (fun id _ => record.tidy id)
      fun _ _ moved => (record.tidy label.1).step moved
  · refine forall_step taken
      (fun id node => Campaign (config.info id) (after.voted id) node.server)
      (fun id _ => (record.campaign id).mono (more id)) fun result delivered moved => ?_
    have newSent : ∀ output ∈ result.2, output ∈ (after label.1).sent := by
      obtain ⟨-, -, other, moved', rfl⟩ := step_eq_some.mp taken
      obtain rfl : result = other := Option.some.inj (moved.symm.trans moved')
      simp +contextual
    exact ((record.campaign label.1).mono (more label.1)).step (record.tidy label.1)
      config.nodup listed moved won
      (fun term member => ⟨.candidacy term, newSent _ member, rfl, rfl⟩)
      (fun target msg granted own =>
        more _ _ _ (voted_of_delivered delivered target msg granted own))

/-- Under the record a server takes office, and sends, in a term it was elected in. -/
theorem ElectionRecord.leadsElected (record : ElectionRecord config before)
    (taken : Cluster.step config before label = some after)
    (won : LeadsWonTerm before label after) : LeadsElected config before label after := by
  obtain ⟨-, -, result, moved, -⟩ := step_eq_some.mp taken
  obtain ⟨id, event⟩ := label
  refine ⟨fun transforms leads => ?_, fun sends => ?_⟩
  · obtain rfl : event = .transform := transforms
    obtain ⟨target, queued, rest, queue, -, -⟩ := Server.step_transform.mp moved
    obtain rfl : target = .leader := by simpa [Server.nextTarget, queue] using leads
    have sameTerm : queued = (before id).server.state.currentTerm := by
      by_contra other
      exact won.1 ⟨rfl, (.leader, queued), by simp [queue], rfl, other⟩
    rw [← sameTerm]
    exact (record.campaign id).queued queued (by simp [queue])
  · have sameTerm : (before id).server.leader.initTerm = (before id).server.state.currentTerm := by
      by_contra other
      exact won.2 ⟨sends, other⟩
    have office : (before id).server.identity = .leader := by
      cases event with
      | sendAppendEntries target =>
          obtain ⟨node, _, _, _, known, -⟩ := Server.step_sendAppendEntries.mp moved
          exact (record.tidy id).role_of_known known
      | _ => exact absurd rfl sends
    rw [← sameTerm]
    exact (record.campaign id).office office

/-- In a run on which no server takes office or sends in another term than the one it won, every
server leads only in a term a majority has elected it in. -/
theorem leadsElected_of_leadsWonTerm (config : ClusterConfig) {labels : List (ServerId × Event)}
    (won : Execution.Along (step config) LeadsWonTerm labels init) :
    Execution.Along (step config) (LeadsElected config) labels init := by
  have preserved := fun before label after (record : ElectionRecord config before)
    (taken : step config before label = some after) (won : LeadsWonTerm before label after) =>
    And.intro (record.step taken won.1) (record.leadsElected taken won)
  exact Execution.along_of_invariant preserved electionRecord_init won

/-- The vote request of a candidate whose log is empty. -/
def firstRequest (term : Nat) (candidateId : ServerId) : RequestVoteMessage :=
  { term, candidateId }

/-- Server 1 stands in term 1 and gets the vote of server 2. -/
def firstVotes : List (ServerId × Event) :=
  [(localServer 1, .timeout), (localServer 1, .transform),
    (localServer 2, .rpcRequestVote (firstRequest 1 (localServer 1))),
    (localServer 1, .receiveVote (localServer 2) (firstRequest 1 (localServer 1)) (1, true))]

/-- Server 1 is elected and becomes leader. -/
def firstElection : List (ServerId × Event) :=
  firstVotes ++ [(localServer 1, .transform)]

/-- Server 1 becomes leader and sends its first message. -/
def firstOffice : List (ServerId × Event) :=
  [(localServer 1, .transform), (localServer 1, .startAppending (localServer 2)),
    (localServer 1, .sendAppendEntries (localServer 2))]

/-- Server 3 stands twice, and server 1 handles its request before taking office. -/
def overtakingVote : List (ServerId × Event) :=
  [(localServer 3, .timeout), (localServer 3, .transform),
    (localServer 3, .timeout), (localServer 3, .transform),
    (localServer 1, .rpcRequestVote (firstRequest 2 (localServer 3)))]

/-- Server 3 takes office in term 2 with the vote of server 1 and sends its first message. -/
def secondOffice : List (ServerId × Event) :=
  [(localServer 3, .receiveVote (localServer 1) (firstRequest 2 (localServer 3)) (2, true)),
    (localServer 3, .transform), (localServer 3, .startAppending (localServer 2)),
    (localServer 3, .sendAppendEntries (localServer 2))]

/-- The election of server 1 without interference. -/
theorem leadsElected_first_election :
    (Execution.run (step trio) (firstVotes ++ firstOffice) init).isSome = true ∧
      Execution.Along (step trio) (LeadsElected trio) (firstVotes ++ firstOffice) init :=
  ⟨by decide +kernel, leadsElected_of_leadsWonTerm trio (by decide +kernel)⟩

/-- Server 1, elected in term 1, takes office in term 2, in which it has given its vote away. -/
theorem leadsElected_counterexample :
    (Execution.run (step trio) (firstVotes ++ overtakingVote ++ firstOffice) init).isSome = true ∧
      ¬ Execution.Along (step trio) (LeadsElected trio)
        (firstVotes ++ overtakingVote ++ firstOffice) init := by
  decide +kernel

/-! ## One leader for a term -/

/-- No two servers have sent append requests of the same term. -/
def OneSenderPerTerm (cluster : Cluster) : Prop :=
  ∀ left right leftTarget rightTarget leftMsg rightMsg,
    Output.appendEntries leftTarget leftMsg ∈ (cluster left).sent →
    Output.appendEntries rightTarget rightMsg ∈ (cluster right).sent →
    leftMsg.term = rightMsg.term → left = right

/-- No step goes back to an earlier term, and no server leads in another term than it won. -/
def ElectsSafely (before : Cluster) (label : ServerId × Event) (after : Cluster) : Prop :=
  KeepsTerm before label after ∧ LeadsWonTerm before label after

instance (before : Cluster) (label : ServerId × Event) (after : Cluster) :
    Decidable (ElectsSafely before label after) :=
  inferInstanceAs (Decidable ((_ ∧ _) ∧ _))

/-- What holds of all votes and all senders in a run that elects safely. -/
structure SenderRecord (config : ClusterConfig) (cluster : Cluster) : Prop
    extends ElectionRecord config cluster where
  /-- Every server votes at most once in a term. -/
  votes : ∀ id ∈ config.srvList, VoteRecord id (cluster id)
  /-- Every sender was elected in the term of its message. -/
  senders : ∀ id target msg, Output.appendEntries target msg ∈ (cluster id).sent →
    Elected (config.info id) (cluster.voted id) msg.term

theorem senderRecord_init : SenderRecord config init where
  toElectionRecord := electionRecord_init
  votes id _ := voteRecord_init id
  senders id target msg member := by simp [init] at member

/-- The null identifier names no sender, so nobody is asked for a vote by nobody. -/
theorem not_namesNobody {self : ServerId} {event : Event}
    (outside : cluster nullServerId = {}) (delivered : cluster.Delivered self event) :
    ¬ Server.NamesNobody event := by
  rintro ⟨msg, asked, nobody⟩
  cases event with
  | rpcRequestVote request =>
      obtain rfl : request = msg := by simpa [Event.voteRequest] using asked
      have sent : Output.requestVote self request ∈ (cluster request.candidateId).sent := delivered
      rw [nobody, outside] at sent
      simp at sent
  | _ => simp [Event.voteRequest] at asked

theorem SenderRecord.step (record : SenderRecord config before)
    (taken : Cluster.step config before label = some after)
    (safe : ElectsSafely before label after) : SenderRecord config after := by
  have elected := record.leadsElected taken safe.2
  have more : ∀ id voter term, before.voted id voter term → after.voted id voter term :=
    fun _ _ _ => voted_mono taken
  refine ⟨record.toElectionRecord.step taken safe.2.1, ?_, fun id target msg member => ?_⟩
  · refine forall_step taken (fun id node => id ∈ config.srvList → VoteRecord id node)
      (fun id _ => record.votes id) fun result delivered moved member => ?_
    have present : label.1 ≠ nullServerId := fun null => config.null_notMem (null ▸ member)
    have named := not_namesNobody (record.outside _ config.null_notMem) delivered
    exact VoteRecord.step (record.votes label.1 member) present moved
      ⟨safe.1.1, safe.1.2, named⟩
  · rcases sent_cases taken member with earlier | ⟨rfl, -, result, moved, built⟩
    · exact (record.senders id target msg earlier).mono (more id)
    · obtain ⟨sends, node, _, _, -, -, created⟩ := Server.step_emits moved built
      obtain ⟨_, -, rfl⟩ := Option.map_eq_some_iff.mp created
      exact (elected.2 (by simp [sends, Event.sending])).mono (more _)

/-- Two majorities of one term share a voter, which has voted once. -/
theorem SenderRecord.elected_unique (record : SenderRecord config cluster) {left right : ServerId}
    {term : Nat} (first : Elected (config.info left) (cluster.voted left) term)
    (second : Elected (config.info right) (cluster.voted right) term) : left = right := by
  obtain ⟨voter, member, leftVote, rightVote⟩ := first.1.overlap second.1
  exact (record.votes voter member).unique term left right leftVote rightVote

/-- Two senders of one term have been elected in it by the same voter. -/
theorem SenderRecord.oneSender (record : SenderRecord config cluster) :
    OneSenderPerTerm cluster := by
  intro left right leftTarget rightTarget leftMsg rightMsg leftSent rightSent sameTerm
  have first := record.senders _ _ _ leftSent
  have second := record.senders _ _ _ rightSent
  rw [sameTerm] at first
  exact record.elected_unique first second

end Cluster

/-- A server does not go back to an earlier term, and does not lead in another term than it won. -/
def Server.ElectsSafely (srv : Server) (event : Event) : Prop :=
  (¬ srv.LowersTerm event ∧ ¬ srv.WrapsTerm event) ∧
    ¬ srv.TakesOtherTerm event ∧ ¬ srv.SendsOtherTerm event

instance (srv : Server) (event : Event) : Decidable (srv.ElectsSafely event) :=
  inferInstanceAs (Decidable ((_ ∧ _) ∧ _))

namespace ThreadedCluster

open Sections (Act)
open Cluster (OneSenderPerTerm)

/-- Nothing begins while a thread of the server is in the middle of its work, and what begins elects
safely. -/
def ElectsSafely (before : ThreadedCluster) (label : ServerId × Act Event)
    (_ : ThreadedCluster) : Prop :=
  before.Undisturbed label ∧
    before.Starts (fun _ node event => node.server.ElectsSafely event) label

instance (before : ThreadedCluster) (label : ServerId × Act Event) (after : ThreadedCluster) :
    Decidable (ElectsSafely before label after) :=
  inferInstanceAs (Decidable (_ ∧ _))

/-- In a run that elects safely no two servers send append requests of the same term. -/
theorem oneSenderPerTerm (config : ClusterConfig) {labels : List (ServerId × Act Event)}
    {final : ThreadedCluster} (safe : Execution.Along (step config) ElectsSafely labels init)
    (execution : Execution.run (step config) labels init = some final) :
    OneSenderPerTerm final.nodes := by
  have preserved := fun before label after (record : Cluster.SenderRecord config before)
    (taken : Cluster.step config before label = some after)
    (safe : (before label.1).server.ElectsSafely label.2) =>
    show Cluster.SenderRecord config after from record.step taken safe
  obtain ⟨cluster, shown, record⟩ :=
    exists_shown preserved Cluster.senderRecord_init safe execution
  intro left right leftTarget rightTarget leftMsg rightMsg leftSent rightSent sameTerm
  exact record.oneSender left right leftTarget rightTarget leftMsg rightMsg
    ((shown left).sent_begins.subset leftSent) ((shown right).sent_begins.subset rightSent) sameTerm

open Cluster (firstVotes firstOffice overtakingVote secondOffice firstRequest)

/-- The election of server 1 without interference. -/
def soleElection : List (ServerId × Act Event) :=
  seriallyAt (firstVotes ++ firstOffice) [1, 10, 5, 2, 2, 0, 2]

/-- Server 1 votes for server 3 before it takes the office it has won. -/
def rivalElections : List (ServerId × Act Event) :=
  seriallyAt (firstVotes ++ overtakingVote ++ firstOffice ++ secondOffice)
    [1, 10, 5, 2, 1, 10, 1, 10, 5, 2, 0, 2, 2, 2, 0, 2]

/-- Server 1 stands in term 1.  Server 2 has tested the term of its request when it stands in term 1
too, and votes for both.  Server 3 votes for server 2. -/
def overtakenVoter : List (ServerId × Act Event) :=
  seriallyAt [(localServer 1, .timeout), (localServer 1, .transform)] [1, 10] ++
  sectionsAt (localServer 2)
    ([.start .timeout, .go 0, .start (.rpcRequestVote (firstRequest 1 (localServer 1))), .go 0,
      .go 0, .go 0, .start .transform, .go 1, .go 1, .go 1] ++ List.replicate 11 (.go 0)) ++
  seriallyAt
    [(localServer 1, .receiveVote (localServer 2) (firstRequest 1 (localServer 1)) (1, true)),
      (localServer 1, .transform), (localServer 1, .startAppending (localServer 3)),
      (localServer 1, .sendAppendEntries (localServer 3)),
      (localServer 3, .rpcRequestVote (firstRequest 1 (localServer 2))),
      (localServer 2, .receiveVote (localServer 3) (firstRequest 1 (localServer 2)) (1, true)),
      (localServer 2, .transform), (localServer 2, .startAppending (localServer 1)),
      (localServer 2, .sendAppendEntries (localServer 1))] [2, 2, 0, 2, 5, 2, 2, 0, 2]

theorem oneSenderPerTerm_first_election :
    ∃ final ∈ Execution.run (step trio) soleElection init, OneSenderPerTerm final.nodes := by
  obtain ⟨final, execution⟩ := Option.isSome_iff_exists.mp
    (show (Execution.run (step trio) soleElection init).isSome = true by decide +kernel)
  exact ⟨final, execution, oneSenderPerTerm trio (by decide +kernel) execution⟩

/-- Two servers that have sent messages of one term. -/
theorem not_oneSenderPerTerm {cluster : Cluster} {left right leftTarget rightTarget : ServerId}
    {leftMsg rightMsg : AppendEntriesMessage}
    (leftSent : Output.appendEntries leftTarget leftMsg ∈ (cluster left).sent)
    (rightSent : Output.appendEntries rightTarget rightMsg ∈ (cluster right).sent)
    (sameTerm : leftMsg.term = rightMsg.term) (other : left ≠ right) :
    ¬ OneSenderPerTerm cluster := fun one =>
  other (one _ _ _ _ _ _ leftSent rightSent sameTerm)

/-- Servers 1 and 3 both send messages of term 2.  After the overtaken vote, servers 1 and 2 both
send messages of term 1, and everything that begins elects safely. -/
theorem oneSenderPerTerm_counterexample :
    (∃ final ∈ Execution.run (step trio) rivalElections init, ¬ OneSenderPerTerm final.nodes) ∧
    Execution.Along (step trio) (fun before label _ =>
        before.Starts (fun _ node event => node.server.ElectsSafely event) label)
        overtakenVoter init ∧
      ∃ final ∈ Execution.run (step trio) overtakenVoter init,
        ¬ OneSenderPerTerm final.nodes := by
  refine ⟨?_, by decide +kernel, ?_⟩
  · obtain ⟨final, execution, first, second⟩ :
        ∃ final ∈ Execution.run (step trio) rivalElections init,
          Output.appendEntries (localServer 2)
              { term := 2, leaderId := localServer 1 } ∈ (final.nodes (localServer 1)).sent ∧
            Output.appendEntries (localServer 2)
              { term := 2, leaderId := localServer 3 } ∈ (final.nodes (localServer 3)).sent := by
      decide +kernel
    exact ⟨final, execution, not_oneSenderPerTerm first second rfl (by decide)⟩
  · obtain ⟨final, execution, first, second⟩ :
        ∃ final ∈ Execution.run (step trio) overtakenVoter init,
          Output.appendEntries (localServer 3)
              { term := 1, leaderId := localServer 1 } ∈ (final.nodes (localServer 1)).sent ∧
            Output.appendEntries (localServer 1)
              { term := 1, leaderId := localServer 2 } ∈ (final.nodes (localServer 2)).sent := by
      decide +kernel
    exact ⟨final, execution, not_oneSenderPerTerm first second rfl (by decide)⟩

end ThreadedCluster

end Quintet
