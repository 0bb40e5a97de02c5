import QuintetRaft.Library.Completeness
import QuintetRaft.Model.Appending
import QuintetRaft.Safety.Bookkeeping
import QuintetRaft.Safety.SeenTerm

/-!
# Servers follow the history of terms

Every steady step of the cluster is a run of steps of the history of terms: the servers' logs are
the logs of the history, and what they have sent is true of it.
-/

namespace Quintet

open Leadership (History Sound Extends Step Recent lastTerm)

/-- A server is in the term and has the log of the history. -/
structure Present (history : History ServerId LogEntry) (id : ServerId) (node : Node) : Prop where
  /-- The greatest term it has seen. -/
  term : history.current id = node.seenTerm
  /-- Its log. -/
  log : history.log id = node.server.state.entries

/-- What a server has sent is true of the history. -/
structure Spoken (members : List ServerId) (history : History ServerId LogEntry) (id : ServerId)
    (sent : List Output) : Prop where
  /-- Vote requests describe the log the server stood with, unless they came too late. -/
  requests : ∀ target msg, Output.requestVote target msg ∈ sent →
    history.leader msg.term ≠ none ∨ ∃ log, history.stood id msg.term = some log ∧
      log.length = msg.lastLogIdx + 1 ∧ lastTerm LogEntry.term log = msg.lastLogTerm
  /-- Votes are on record, unless they came too late. -/
  votes : ∀ term candidate, Voted id sent term candidate →
    history.leader term ≠ none ∨ ∃ log, history.ballot id term candidate log
  /-- Append requests of a leader carry slices of its record, and committed indices. -/
  appends : ∀ target msg, Output.appendEntries target msg ∈ sent →
    target ≠ id ∧ history.leader msg.term = some id ∧ Carries (history.record msg.term) msg ∧
      msg.commitIdx < msg.reach ∧
      history.Committed members [{}] msg.term
        ((history.record msg.term).take (msg.commitIdx + 1))
  /-- Accepted requests are acknowledged. -/
  replies : ∀ msg reply, Output.appendReply msg reply ∈ sent → reply.2 = true →
    msg.reach ≤ history.acked id msg.term

/-- A leader's private data agree with the history of the term it took office in. -/
structure Leading (info : ServerInfo) (history : History ServerId LogEntry) (id : ServerId)
    (srv : Server) : Prop where
  /-- It is the leader of that term. -/
  office : srv.identity = .leader → history.leader srv.leader.initTerm = some id
  /-- Its threads wait for answers to messages of that term. -/
  threads : ∀ target node oldMatchIdx retryTimes msg,
    srv.leader.followerNodes target = some node →
    node.appendingThread = .sending oldMatchIdx retryTimes msg → msg.term = srv.leader.initTerm
  /-- Its cursors follow what is acknowledged in that term. -/
  cursors : Cursors info (fun target count => count ≤ history.acked target srv.leader.initTerm)
    srv.leader
  /-- Its counters do not exceed that. -/
  counters : Counters info srv.leader

/-- What a server has committed is committed, and what it has handed over is what it has
committed. -/
structure Handed (members : List ServerId) (history : History ServerId LogEntry) (id : ServerId)
    (node : Node) : Prop where
  /-- The commit index points into the log. -/
  inside : node.server.state.commitIdx < node.server.state.entries.length
  /-- The log up to the commit index is committed. -/
  committed : history.Committed members [{}] (history.current id)
    (node.server.state.entries.take (node.server.state.commitIdx + 1))
  /-- Nothing else is handed over. -/
  behind : node.server.state.lastApplied ≤ node.server.state.commitIdx
  /-- Entries have been handed over in their order, without gaps, after the sentinel. -/
  handed : applied node.sent =
    ((node.server.state.entries.take (node.server.state.lastApplied + 1)).drop 1).map
      LogEntry.toBasic

/-- The cluster has the history. -/
structure Simulates (config : ClusterConfig) (history : History ServerId LogEntry)
    (cluster : Cluster) : Prop where
  /-- The history is a sound one. -/
  sound : Sound LogEntry.term config.srvList [{}] history
  /-- Its leaders have been elected. -/
  leaders : ∀ term leader, history.leader term = some leader →
    Elected (config.info leader) (cluster.voted leader) term
  /-- Terms and logs are those of the history. -/
  present : ∀ id, Present history id (cluster id)
  /-- What was sent is true of it. -/
  spoken : ∀ id, Spoken config.srvList history id (cluster id).sent
  /-- Leaders' books agree with it. -/
  leading : ∀ id, Leading (config.info id) history id (cluster id).server
  /-- What was handed over is committed in it. -/
  handed : ∀ id, Handed config.srvList history id (cluster id)

theorem sentinel_oldest : ∀ entry ∈ ([{}] : List LogEntry), entry.term = 0 := by
  intro entry member
  rw [List.mem_singleton.mp member]
  rfl

theorem simulates_init (config : ClusterConfig) :
    Simulates config (History.init [{}]) Cluster.init where
  sound := Leadership.sound_init sentinel_oldest
  leaders := nofun
  present _ := ⟨rfl, rfl⟩
  spoken _ :=
    { requests := nofun
      votes := fun term candidate ⟨_, member, _⟩ => nomatch member
      appends := nofun
      replies := nofun }
  leading _ :=
    { office := nofun
      threads := nofun
      cursors := ⟨nofun, nofun, nofun⟩
      counters :=
        { within := nofun
          bounded := fun idx count counter => by simp [Cluster.init] at counter } }
  handed _ :=
    { inside := Nat.one_pos
      committed := .inl (List.take_prefix _ _)
      behind := Nat.le_refl 0
      handed := rfl }

/-! ## Later histories -/

section Mono

variable {members : List ServerId} {info : ServerInfo}
  {before after : History ServerId LogEntry} {id : ServerId}

theorem Spoken.mono {sent : List Output} (spoken : Spoken members before id sent)
    (grows : Extends before after) : Spoken members after id sent where
  requests target msg member := by
    rcases spoken.requests target msg member with led | ⟨log, stood, described⟩
    · exact .inl (grows.led led)
    · exact .inr ⟨log, grows.stood _ _ _ stood, described⟩
  votes term candidate voted := by
    rcases spoken.votes term candidate voted with led | ⟨log, cast⟩
    · exact .inl (grows.led led)
    · exact .inr ⟨log, grows.ballot _ _ _ _ cast⟩
  appends target msg member := by
    obtain ⟨other, leads, carries, below, committed⟩ := spoken.appends target msg member
    have inside : msg.commitIdx + 1 ≤ (before.record msg.term).length :=
      Nat.succ_le_of_lt (Nat.lt_of_lt_of_le below carries.reach_le)
    refine ⟨other, grows.leader _ _ leads, carries.mono (grows.record _), below, ?_⟩
    rw [grows.take_record inside]
    exact committed.mono grows (Nat.le_refl _)
  replies msg reply member success :=
    (spoken.replies msg reply member success).trans (grows.acked _ _)

theorem Leading.mono {srv : Server} (leading : Leading info before id srv)
    (grows : Extends before after) : Leading info after id srv where
  office role := grows.leader _ _ (leading.office role)
  threads := leading.threads
  cursors := leading.cursors.mono fun _ _ acknowledged => acknowledged.trans (grows.acked _ _)
  counters := leading.counters

theorem Handed.mono {node : Node} (handed : Handed members before id node)
    (grows : Extends before after) : Handed members after id node :=
  { handed with committed := handed.committed.mono grows (grows.current id) }

end Mono

/-! ## What the history learns from an event -/

/-- What the history knows after an event of a server. -/
def Learns (history : History ServerId LogEntry) (self : ServerId) (srv : Server) : Event → Prop
  | .rpcRequestVote msg => srv.Serving → srv.state.grants msg →
      history.leader msg.term ≠ none ∨ ∃ log, history.ballot self msg.term msg.candidateId log
  | .rpcAppendEntries msg => srv.Accepts msg → msg.reach ≤ history.acked self msg.term
  | .transform =>
      (srv.nextTarget = some .candidate →
        history.leader (incrementTerm srv.state.currentTerm) ≠ none ∨
          history.stood self (incrementTerm srv.state.currentTerm) = some srv.state.entries ∧
            ∃ log, history.ballot self (incrementTerm srv.state.currentTerm) self log) ∧
        (srv.nextTarget = some .leader → history.leader srv.state.currentTerm = some self)
  | _ => True

/-- A step of a server is a run of the history. -/
structure Follows (config : ClusterConfig) (cluster : Cluster) (id : ServerId) (event : Event)
    (result : Server × List Output) (before after : History ServerId LogEntry) : Prop where
  /-- The run. -/
  run : Relation.ReflTransGen (Step LogEntry.term config.srvList) before after
  /-- Only the acting server changes its term. -/
  current : after.current = Function.update before.current id
    ((cluster id).next result).seenTerm
  /-- Only the acting server changes its log. -/
  log : after.log = Function.update before.log id result.1.state.entries
  /-- A new leader has been elected. -/
  leaders : ∀ term leader, after.leader term = some leader →
    before.leader term = some leader ∨ Elected (config.info leader) (cluster.voted leader) term
  /-- What is known afterwards. -/
  learns : Learns after id (cluster id).server event

namespace Simulates

variable {config : ClusterConfig} {cluster : Cluster} {self : ServerId} {event : Event}
  {result : Server × List Output} {history : History ServerId LogEntry}

theorem seenTerm_le_step (moved : (cluster self).server.step (config.info self) event = some result)
    (steady : (cluster self).Steady (config.info self) event) :
    (cluster self).seenTerm ≤
      ((cluster self).next result).seenTerm := by
  rw [Node.seenTerm_step moved steady]
  cases event with
  | rpcAppendEntries msg =>
      rw [Node.seenAfter]
      split_ifs with accepts
      · exact steady.2 accepts
      · exact Nat.le_refl _
  | _ => exact Nat.le_max_left _ _

/-- Every step begins by seeing the term it ends in. -/
theorem adopts (simulates : Simulates config history cluster)
    (moved : (cluster self).server.step (config.info self) event = some result)
    (steady : (cluster self).Steady (config.info self) event) :
    Step LogEntry.term config.srvList history
      (history.adopt self ((cluster self).next result).seenTerm) :=
  .adopt self _ ((simulates.present self).term.trans_le (seenTerm_le_step moved steady))

theorem log_unchanged (simulates : Simulates config history cluster)
    (unchanged : result.1.state.entries = (cluster self).server.state.entries) :
    history.log = Function.update history.log self result.1.state.entries := by
  rw [unchanged, ← (simulates.present self).log, Function.update_eq_self]

/-- A step that does nothing else. -/
theorem follows_adopted (simulates : Simulates config history cluster)
    (moved : (cluster self).server.step (config.info self) event = some result)
    (steady : (cluster self).Steady (config.info self) event)
    (unchanged : result.1.state.entries = (cluster self).server.state.entries)
    (learns : Learns history self (cluster self).server event) :
    Follows config cluster self event result history
      (history.adopt self ((cluster self).next result).seenTerm) where
  run := .single (simulates.adopts moved steady)
  current := rfl
  log := simulates.log_unchanged unchanged
  leaders _ _ leads := .inl leads
  learns := by
    cases event with
    | _ => exact learns

theorem lastTerm_entries (state : ServerState) :
    lastTerm LogEntry.term state.entries = state.lastTerm := by
  simp [lastTerm, ServerState.lastTerm, List.getLast?_eq_getLast_of_ne_nil state.entries_ne]

/-- The test of the code compares logs as the history does. -/
theorem recent_of_upToDate {state : ServerState} {lastLogIdx lastLogTerm : Nat}
    {log : List LogEntry} (newer : upToDate state lastLogIdx lastLogTerm)
    (long : log.length = lastLogIdx + 1) (last : lastTerm LogEntry.term log = lastLogTerm) :
    Recent LogEntry.term state.entries log := by
  unfold Recent
  rw [lastTerm_entries, last]
  refine newer.imp_right fun ⟨sameTerm, longer⟩ => ⟨sameTerm, ?_⟩
  omega

theorem follows_rpcRequestVote {msg : RequestVoteMessage}
    (simulates : Simulates config history cluster)
    (delivered : cluster.Delivered self (.rpcRequestVote msg))
    (moved : (cluster self).server.step (config.info self) (.rpcRequestVote msg) = some result)
    (steady : (cluster self).Steady (config.info self) (.rpcRequestVote msg)) :
    ∃ later, Follows config cluster self (.rpcRequestVote msg) result history later := by
  have unchanged : result.1.state.entries = (cluster self).server.state.entries :=
    Server.step_entries moved
  by_cases granted : (cluster self).server.Serving ∧ (cluster self).server.state.grants msg
  · by_cases vacant : history.leader msg.term = none
    · obtain ⟨serving, grants⟩ := granted
      obtain ⟨upTo, tested⟩ := steady serving
      have newer : upToDate (cluster self).server.state msg.lastLogIdx msg.lastLogTerm := by
        rcases grants with greater | ⟨-, newer⟩
        · exact tested greater
        · exact newer
      obtain ⟨log, stood, long, last⟩ :=
        ((simulates.spoken msg.candidateId).requests self msg delivered).resolve_left
          (not_not.mpr vacant)
      have seen : ((cluster self).next result).seenTerm = msg.term := by
        have now : result.1.state.currentTerm = msg.term := by
          rw [Server.step_currentTerm moved, Server.termAfter, if_pos serving]
        rw [Node.seenTerm_step moved steady, now]
        exact Nat.max_eq_right upTo
      have recent : Recent LogEntry.term (history.log self) log := by
        rw [(simulates.present self).log]
        exact recent_of_upToDate newer long last
      have casts : Step LogEntry.term config.srvList
          (history.adopt self ((cluster self).next result).seenTerm) _ :=
        .vote self msg.term msg.candidateId log
          ((Function.update_self self _ history.current).trans seen) vacant stood recent
      exact ⟨_,
        { run := (Relation.ReflTransGen.single (simulates.adopts moved steady)).tail casts
          current := rfl
          log := simulates.log_unchanged unchanged
          leaders := fun _ _ leads => .inl leads
          learns := fun _ _ => .inr ⟨_, .inr ⟨rfl, rfl, rfl, rfl⟩⟩ }⟩
    · exact ⟨_, simulates.follows_adopted moved steady unchanged fun _ _ => .inl vacant⟩
  · exact ⟨_, simulates.follows_adopted moved steady unchanged
      fun serving grants => absurd ⟨serving, grants⟩ granted⟩

/-- A delivered append request comes from the leader of its term, and an accepted one brings the
log up to a beginning of the leader's record. -/
theorem accepted (simulates : Simulates config history cluster) {msg : AppendEntriesMessage}
    (delivered : cluster.Delivered self (.rpcAppendEntries msg))
    (moved : (cluster self).server.step (config.info self) (.rpcAppendEntries msg) = some result)
    (accepts : (cluster self).server.Accepts msg) :
    self ≠ msg.leaderId ∧ history.leader msg.term = some msg.leaderId ∧
      msg.reach ≤ (history.record msg.term).length ∧
      Logs.Replaces ((history.record msg.term).take msg.reach)
        (cluster self).server.state.entries result.1.state.entries := by
  obtain ⟨other, leads, carries, -, -⟩ :=
    (simulates.spoken msg.leaderId).appends self msg delivered
  have rooted := simulates.sound.rooted self
  rw [(simulates.present self).log] at rooted
  have matching : Logs.Matching LogEntry.term (cluster self).server.state.entries
      (history.record msg.term) :=
    rooted.matching (simulates.sound.records msg.term)
  refine ⟨other, leads, carries.reach_le, ?_⟩
  rw [Server.step_entries moved, Server.entriesAfter, if_pos accepts]
  exact replicate_replaces matching carries accepts.2.2

theorem follows_rpcAppendEntries {msg : AppendEntriesMessage}
    (simulates : Simulates config history cluster)
    (delivered : cluster.Delivered self (.rpcAppendEntries msg))
    (moved : (cluster self).server.step (config.info self) (.rpcAppendEntries msg) = some result)
    (steady : (cluster self).Steady (config.info self) (.rpcAppendEntries msg)) :
    ∃ later, Follows config cluster self (.rpcAppendEntries msg) result history later := by
  by_cases accepts : (cluster self).server.Accepts msg
  · obtain ⟨other, leads, inside, replaced⟩ := simulates.accepted delivered moved accepts
    have seen : ((cluster self).next result).seenTerm = msg.term := by
      rw [Node.seenTerm_step moved steady]
      exact if_pos accepts
    rw [← (simulates.present self).log] at replaced
    have brings : Step LogEntry.term config.srvList
        (history.adopt self ((cluster self).next result).seenTerm) _ :=
      .accept self msg.term msg.leaderId msg.reach result.1.state.entries
        ((Function.update_self self _ history.current).trans seen) leads other.symm inside replaced
    exact ⟨_,
      { run := (Relation.ReflTransGen.single (simulates.adopts moved steady)).tail brings
        current := rfl
        log := rfl
        leaders := fun _ _ leads => .inl leads
        learns := fun _ => (Nat.le_max_right _ _).trans_eq (if_pos ⟨rfl, rfl⟩).symm }⟩
  · have unchanged : result.1.state.entries = (cluster self).server.state.entries := by
      rw [Server.step_entries moved]
      exact if_neg accepts
    exact ⟨_, simulates.follows_adopted moved steady unchanged
      fun accepts' => absurd accepts' accepts⟩

theorem follows_rpcAddLog {msg : AddLogMessage} (simulates : Simulates config history cluster)
    (record : Cluster.SenderRecord config cluster) (listed : self ∈ config.srvList)
    (moved : (cluster self).server.step (config.info self) (.rpcAddLog msg) = some result)
    (steady : (cluster self).Steady (config.info self) (.rpcAddLog msg)) :
    ∃ later, Follows config cluster self (.rpcAddLog msg) result history later := by
  by_cases stored : (cluster self).server.identity = .leader ∧
      ¬ Server.holdsOperation (cluster self).server.state msg
  · have inTerm := record.initTerm_eq listed stored.1 (steady stored.1 stored.2)
    have seen : ((cluster self).next result).seenTerm =
        (cluster self).server.state.currentTerm := by
      have same : result.1.state.currentTerm = (cluster self).server.state.currentTerm :=
        Server.step_currentTerm moved
      have current := inTerm.symm.trans (steady stored.1 stored.2)
      rw [Node.seenTerm_step moved steady, same]
      exact Nat.max_eq_right current.ge
    have leads := (simulates.leading self).office stored.1
    rw [inTerm] at leads
    have longer : result.1.state.entries = history.log self ++
        [Server.logEntry msg (cluster self).server.state.currentTerm] := by
      rw [Server.step_entries moved, (simulates.present self).log]
      exact if_pos stored
    have appends : Step LogEntry.term config.srvList
        (history.adopt self ((cluster self).next result).seenTerm) _ :=
      .append self (Server.logEntry msg (cluster self).server.state.currentTerm)
        ((Function.update_self self _ history.current).trans seen) leads
    exact ⟨_,
      { run := (Relation.ReflTransGen.single (simulates.adopts moved steady)).tail appends
        current := rfl
        log := by
          rw [longer]
          rfl
        leaders := fun _ _ leads => .inl leads
        learns := trivial }⟩
  · have unchanged : result.1.state.entries = (cluster self).server.state.entries := by
      rw [Server.step_entries moved]
      exact if_neg stored
    exact ⟨_, simulates.follows_adopted moved steady unchanged trivial⟩

/-- A candidacy in a term that already has a leader is lost, any other one is on record. -/
theorem follows_candidacy (simulates : Simulates config history cluster)
    (moved : (cluster self).server.step (config.info self) .transform = some result)
    (steady : (cluster self).Steady (config.info self) .transform)
    (stands : (cluster self).server.nextTarget = some .candidate) :
    ∃ later, Follows config cluster self .transform result history later := by
  have unchanged : result.1.state.entries = (cluster self).server.state.entries :=
    Server.step_entries moved
  obtain ⟨request, queued, target⟩ := Option.map_eq_some_iff.mp stands
  have ahead := (steady request queued).1 target
  have notLeader : (cluster self).server.nextTarget ≠ some .leader := by rw [stands]; decide
  have opens : result.1.state.currentTerm =
      incrementTerm (cluster self).server.state.currentTerm := by
    rw [Server.step_currentTerm moved, Server.termAfter, if_pos stands]
  have seen : ((cluster self).next result).seenTerm =
      incrementTerm (cluster self).server.state.currentTerm := by
    rw [Node.seenTerm_step moved steady, opens]
    exact Nat.max_eq_right ahead.le
  by_cases vacant :
      history.leader (incrementTerm (cluster self).server.state.currentTerm) = none
  · have fresh :
        history.stood self (incrementTerm (cluster self).server.state.currentTerm) = none := by
      by_contra stood
      obtain ⟨log, stood⟩ := Option.ne_none_iff_exists'.mp stood
      have reached := (simulates.sound.candidacies self _ log stood).2.1
      rw [(simulates.present self).term] at reached
      omega
    have present : (history.adopt self ((cluster self).next result).seenTerm).current self =
        incrementTerm (cluster self).server.state.currentTerm :=
      (Function.update_self self _ history.current).trans seen
    have opensTerm : Step LogEntry.term config.srvList
        (history.adopt self ((cluster self).next result).seenTerm) _ :=
      .stand self _ (by omega) present vacant fresh
    have votes : Step LogEntry.term config.srvList
        ((history.adopt self ((cluster self).next result).seenTerm).stand self
          (incrementTerm (cluster self).server.state.currentTerm)) _ :=
      .vote self _ self (history.log self) present vacant (if_pos ⟨rfl, rfl⟩)
        (.inr ⟨rfl, Nat.le_refl _⟩)
    exact ⟨_,
      { run := ((Relation.ReflTransGen.single (simulates.adopts moved steady)).tail opensTerm).tail
          votes
        current := rfl
        log := simulates.log_unchanged unchanged
        leaders := fun _ _ leads => .inl leads
        learns := by
          refine ⟨fun _ => .inr ⟨?_, ?_⟩, fun takes => absurd takes notLeader⟩
          · rw [← (simulates.present self).log]
            exact if_pos ⟨rfl, rfl⟩
          · exact ⟨_, .inr ⟨rfl, rfl, rfl, rfl⟩⟩ }⟩
  · exact ⟨_, simulates.follows_adopted moved steady unchanged
      ⟨fun _ => .inl vacant, fun takes => absurd takes notLeader⟩⟩

/-- Who takes office in the term it has won, and has seen no later one, becomes the leader of that
term. -/
theorem follows_office (simulates : Simulates config history cluster)
    (record : Cluster.SenderRecord config cluster) (listed : self ∈ config.srvList)
    (moved : (cluster self).server.step (config.info self) .transform = some result)
    (steady : (cluster self).Steady (config.info self) .transform)
    (takes : (cluster self).server.nextTarget = some .leader) :
    ∃ later, Follows config cluster self .transform result history later := by
  have unchanged : result.1.state.entries = (cluster self).server.state.entries :=
    Server.step_entries moved
  obtain ⟨request, queued, target⟩ := Option.map_eq_some_iff.mp takes
  have current := (steady request queued).2 target
  have notCandidate : (cluster self).server.nextTarget ≠ some .candidate := by rw [takes]; decide
  have elected : Elected (config.info self) (cluster.voted self) request.2 := by
    refine (record.campaign self).queued request.2 ?_
    rw [← target]
    exact List.mem_of_head? queued
  have reached := record.elected_le listed elected
  have known := (cluster self).currentTerm_le_seenTerm
  have inTerm : request.2 = (cluster self).server.state.currentTerm := by omega
  rw [inTerm] at elected current
  have seen : ((cluster self).next result).seenTerm = (cluster self).server.state.currentTerm := by
    have same : result.1.state.currentTerm = (cluster self).server.state.currentTerm := by
      rw [Server.step_currentTerm moved, Server.termAfter, if_neg notCandidate]
    rw [Node.seenTerm_step moved steady, same]
    exact Nat.max_eq_right current.ge
  by_cases vacant : history.leader (cluster self).server.state.currentTerm = none
  · have onRecord : ∀ voter, cluster.voted self voter (cluster self).server.state.currentTerm →
        ∃ log, history.ballot voter (cluster self).server.state.currentTerm self log :=
      fun voter vote => ((simulates.spoken voter).votes _ self vote).resolve_left
        (not_not.mpr vacant)
    obtain ⟨log, own⟩ := onRecord self elected.2
    obtain ⟨-, -, newer, stood, -⟩ := simulates.sound.ballots self _ self log own
    have present : (history.adopt self ((cluster self).next result).seenTerm).current self =
        (cluster self).server.state.currentTerm :=
      (Function.update_self self _ history.current).trans seen
    have elects : Step LogEntry.term config.srvList
        (history.adopt self ((cluster self).next result).seenTerm) _ :=
      .elect self _ present vacant (Option.ne_none_iff_exists'.mpr ⟨newer, stood⟩)
        (elected.1.mono onRecord)
    exact ⟨_,
      { run := (Relation.ReflTransGen.single (simulates.adopts moved steady)).tail elects
        current := rfl
        log := simulates.log_unchanged unchanged
        leaders := fun term leader leads => by
          by_cases same : term = (cluster self).server.state.currentTerm
          · subst same
            have new : leader = self := by
              simpa [History.elect, History.adopt, eq_comm] using leads
            exact .inr (new ▸ elected)
          · left
            simpa [History.elect, History.adopt, same] using leads
        learns := ⟨fun stands => absurd stands notCandidate, fun _ => Function.update_self ..⟩ }⟩
  · obtain ⟨leader, leads⟩ := Option.ne_none_iff_exists'.mp vacant
    obtain rfl := record.elected_unique (simulates.leaders _ leader leads) elected
    exact ⟨_, simulates.follows_adopted moved steady unchanged
      ⟨fun stands => absurd stands notCandidate, fun _ => leads⟩⟩

/-- Every steady step of a server is a run of the history. -/
theorem follows (simulates : Simulates config history cluster)
    (record : Cluster.SenderRecord config cluster) (listed : self ∈ config.srvList)
    (delivered : cluster.Delivered self event)
    (moved : (cluster self).server.step (config.info self) event = some result)
    (steady : (cluster self).Steady (config.info self) event) :
    ∃ later, Follows config cluster self event result history later := by
  cases event with
  | rpcRequestVote msg => exact simulates.follows_rpcRequestVote delivered moved steady
  | rpcAppendEntries msg => exact simulates.follows_rpcAppendEntries delivered moved steady
  | rpcAddLog msg => exact simulates.follows_rpcAddLog record listed moved steady
  | transform =>
      by_cases stands : (cluster self).server.nextTarget = some .candidate
      · exact simulates.follows_candidacy moved steady stands
      · by_cases takes : (cluster self).server.nextTarget = some .leader
        · exact simulates.follows_office record listed moved steady takes
        · exact ⟨_, simulates.follows_adopted moved steady (Server.step_entries moved)
            ⟨fun stands' => absurd stands' stands, fun takes' => absurd takes' takes⟩⟩
  | _ => exact ⟨_, simulates.follows_adopted moved steady (Server.step_entries moved) trivial⟩

end Simulates

end Quintet
