import QuintetRaft.Safety.TermHistory

/-!
# The cluster simulates the history of terms

After a steady step everything the servers have sent, the books of the leaders, and what was
committed and handed over still agree with the history.
-/

namespace Quintet

open Leadership (History Sound Extends Step lastTerm)

namespace Simulates

variable {config : ClusterConfig} {cluster : Cluster} {self : ServerId} {event : Event}
  {result : Server × List Output} {history later : History ServerId LogEntry}

/-- The log of a leader that has seen no later term is the record of its term. -/
theorem log_eq_record (simulates : Simulates config history cluster)
    (role : (cluster self).server.identity = .leader)
    (current : (cluster self).server.leader.initTerm = (cluster self).seenTerm) :
    (cluster self).server.state.entries =
      history.record (cluster self).server.leader.initTerm := by
  have present := simulates.present self
  have office := simulates.sound.offices _ self ((simulates.leading self).office role)
  rw [← present.log]
  exact office.tenure (present.term.trans current.symm)

/-! ## What was sent -/

/-- A new append request carries a slice of the record of its sender. -/
theorem appends_step (simulates : Simulates config history cluster)
    (record : Cluster.SenderRecord config cluster) (listed : self ∈ config.srvList)
    {target : ServerId}
    (moved : (cluster self).server.step (config.info self) event = some result)
    (steady : (cluster self).Steady (config.info self) event)
    {msg : AppendEntriesMessage} (new : Output.appendEntries target msg ∈ result.2) :
    target ≠ self ∧ history.leader msg.term = some self ∧
      Carries (history.record msg.term) msg ∧ msg.commitIdx < msg.reach ∧
      history.Committed config.srvList [{}] msg.term
        ((history.record msg.term).take (msg.commitIdx + 1)) := by
  obtain ⟨rfl, node, _, _, known, -, built⟩ := Server.step_emits moved new
  have role := (record.tidy _).role_of_known known
  have inTerm := record.initTerm_eq listed role steady
  have same := simulates.log_eq_record role steady
  have leading := simulates.leading self
  have handed := simulates.handed self
  have positive := (leading.cursors.sound target node known).1
  obtain ⟨carries, reach, -, sameTerm, -, sameIdx⟩ :=
    createAppendEntriesMessage_eq_some built positive
  rw [← inTerm] at sameTerm
  have committed := handed.committed
  rw [(simulates.present self).term, ← steady, same] at committed
  rw [same] at carries
  rw [sameTerm, sameIdx, reach]
  exact ⟨(ServerInfo.mem_others.mp (leading.cursors.others target node known)).2,
    leading.office role, carries, handed.inside, committed⟩

/-- Who sends an append request has the record of its term as its log. -/
theorem log_of_sent (simulates : Simulates config history cluster)
    (record : Cluster.SenderRecord config cluster) (listed : self ∈ config.srvList)
    {target : ServerId}
    (moved : (cluster self).server.step (config.info self) event = some result)
    (steady : (cluster self).Steady (config.info self) event)
    {msg : AppendEntriesMessage} (new : Output.appendEntries target msg ∈ result.2) :
    (cluster self).server.state.entries = history.record msg.term := by
  obtain ⟨rfl, node, _, _, known, -, built⟩ := Server.step_emits moved new
  have role := (record.tidy _).role_of_known known
  have positive := ((simulates.leading self).cursors.sound target node known).1
  obtain ⟨-, -, -, sameTerm, -⟩ := createAppendEntriesMessage_eq_some built positive
  rw [sameTerm, ← record.initTerm_eq listed role steady]
  exact simulates.log_eq_record role steady

/-- What a step sends is true of the history after it. -/
theorem spoken_step (simulates : Simulates config history cluster)
    (record : Cluster.SenderRecord config cluster) (listed : self ∈ config.srvList)
    (moved : (cluster self).server.step (config.info self) event = some result)
    (steady : (cluster self).Steady (config.info self) event)
    (learns : Learns later self (cluster self).server event) (grows : Extends history later) :
    Spoken config.srvList later self ((cluster self).sent ++ result.2) := by
  have earlier := (simulates.spoken self).mono grows
  refine ⟨fun target msg member => ?_, fun term candidate voted => ?_,
    fun target msg member => ?_, fun msg reply member success => ?_⟩
  · rcases List.mem_append.mp member with old | new
    · exact earlier.requests target msg old
    · obtain ⟨rfl, stands, -, rfl⟩ := Server.step_emits moved new
      refine (learns.1 stands).imp_right fun ⟨stood, _⟩ => ⟨_, stood, ?_, lastTerm_entries _⟩
      exact (Nat.sub_add_cancel (cluster self).server.state.entries_length_pos).symm
  · rcases voted_append.mp voted with old | ⟨output, new, vote⟩
    · exact earlier.votes term candidate old
    · have emitted := Server.step_emits moved new
      cases output with
      | voteReply msg reply =>
          obtain ⟨rfl, answer⟩ := emitted
          obtain ⟨rfl, rfl⟩ := vote
          by_cases serving : (cluster self).server.Serving
          · rw [Server.rpcRequestVote_reply serving] at answer
            obtain ⟨rfl, granted⟩ := Prod.mk.inj answer
            exact learns serving (of_decide_eq_true granted.symm)
          · simp [Server.rpcRequestVote_of_not_serving serving] at answer
      | candidacy opened =>
          obtain ⟨rfl, stands, rfl⟩ := emitted
          obtain ⟨rfl, rfl⟩ := vote
          exact (learns.1 stands).imp_right And.right
      | _ => exact vote.elim
  · rcases List.mem_append.mp member with old | new
    · exact earlier.appends target msg old
    · obtain ⟨other, leads, carries, below, committed⟩ :=
        simulates.appends_step record listed moved steady new
      have inside : msg.commitIdx + 1 ≤ (history.record msg.term).length :=
        Nat.succ_le_of_lt (Nat.lt_of_lt_of_le below carries.reach_le)
      refine ⟨other, grows.leader _ _ leads, carries.mono (grows.record _), below, ?_⟩
      rw [grows.take_record inside]
      exact committed.mono grows (Nat.le_refl _)
  · rcases List.mem_append.mp member with old | new
    · exact earlier.replies msg reply old success
    · obtain ⟨rfl, rfl⟩ := Server.step_emits moved new
      rw [Server.rpcAppendEntries_reply, decide_eq_true_iff] at success
      exact learns success

/-! ## The books of leaders -/

/-- The threads of a leader wait for answers to messages of its term. -/
theorem threads_step (simulates : Simulates config history cluster)
    (record : Cluster.SenderRecord config cluster) (listed : self ∈ config.srvList)
    (moved : (cluster self).server.step (config.info self) event = some result)
    (steady : (cluster self).Steady (config.info self) event) (kept : event ≠ .transform)
    {target : ServerId} {node : FollowerNode} {oldMatchIdx retryTimes : Nat}
    {msg : AppendEntriesMessage} (known : result.1.leader.followerNodes target = some node)
    (thread : node.appendingThread = .sending oldMatchIdx retryTimes msg) :
    msg.term = (cluster self).server.leader.initTerm := by
  have earlier := (simulates.leading self).threads
  cases Server.step_books moved kept with
  | still same =>
      rw [same] at known
      exact earlier target node oldMatchIdx retryTimes msg known thread
  | adds _ _ _ _ same =>
      rw [same] at known
      exact earlier target node oldMatchIdx retryTimes msg known thread
  | added _ _ _ same =>
      rw [same] at known
      exact earlier target node oldMatchIdx retryTimes msg known thread
  | moves other before changed present moves same =>
      rw [same] at known
      rcases known_update known with ⟨rfl, rfl⟩ | old
      · obtain ⟨rfl, built⟩ := moves.sending thread
        have inTerm := record.initTerm_eq listed ((record.tidy _).role_of_known present) steady
        obtain ⟨_, -, rfl⟩ := Option.map_eq_some_iff.mp built
        exact inTerm.symm
      · exact earlier target node oldMatchIdx retryTimes msg old thread
  | counts other before idx _ _ present _ _ same =>
      rw [same] at known
      rcases known_update known with ⟨rfl, rfl⟩ | old
      · exact nomatch thread
      · exact earlier target node oldMatchIdx retryTimes msg old thread

/-- The cursors of a leader follow what was acknowledged in its term. -/
theorem cursors_step (simulates : Simulates config history cluster)
    (record : Cluster.SenderRecord config cluster) (delivered : cluster.Delivered self event)
    (moved : (cluster self).server.step (config.info self) event = some result)
    (steady : (cluster self).Steady (config.info self) event) (kept : event ≠ .transform) :
    Cursors (config.info self)
      (fun target count =>
        count ≤ history.acked target (cluster self).server.leader.initTerm)
      result.1.leader := by
  have leading := simulates.leading self
  refine leading.cursors.step (Server.step_books moved kept) (fun target node sends known => ?_)
    fun target msg term answers => ?_
  · subst sends
    rw [simulates.log_eq_record ((record.tidy _).role_of_known known) steady]
    rcases leading.cursors.acknowledged target node known with fresh | acknowledged
    · rw [fresh, ← simulates.log_eq_record ((record.tidy _).role_of_known known) steady]
      exact (cluster self).server.state.entries_length_pos
    · exact acknowledged.trans (simulates.sound.inside _ _)
  · subst answers
    have answered := (simulates.spoken target).replies msg (term, true) delivered rfl
    obtain ⟨node, oldMatchIdx, retryTimes, known, thread, -⟩ :=
      Server.step_receiveAppendReply.mp moved
    rwa [leading.threads target node oldMatchIdx retryTimes msg known thread] at answered

/-- A leader's books agree with the history after a step. -/
theorem leading_step (simulates : Simulates config history cluster)
    (record : Cluster.SenderRecord config cluster) (listed : self ∈ config.srvList)
    (delivered : cluster.Delivered self event)
    (moved : (cluster self).server.step (config.info self) event = some result)
    (steady : (cluster self).Steady (config.info self) event)
    (learns : Learns later self (cluster self).server event) (grows : Extends history later) :
    Leading (config.info self) later self result.1 := by
  have leading := simulates.leading self
  by_cases moves : event = .transform
  · subst moves
    obtain ⟨cursors, fresh⟩ := Cursors.transform (record.tidy self) moved
      fun target count => count ≤ later.acked target result.1.leader.initTerm
    refine ⟨fun role => ?_, fun target node _ _ _ known thread => ?_, cursors,
      leading.counters.transform (record.tidy self) moved⟩
    · obtain ⟨target, queued, rest, queue, -, rfl⟩ := Server.step_transform.mp moved
      obtain rfl : target = .leader := by simpa [Server.transform_identity] using role
      rw [Server.transform_leader, if_pos rfl, Server.leaderInit, Server.leave_state]
      exact learns.2 (by simp [Server.nextTarget, queue])
    · rw [fresh target node known] at thread
      simp at thread
  · obtain ⟨inTerm, -, -⟩ := Server.step_office moved moves
    have careful : ¬ (cluster self).server.CountsUnsent event := by
      cases event with
      | countReplica target => exact steady.1
      | _ => simp [Server.CountsUnsent, Event.counting]
    refine ⟨fun role => ?_, fun target node _ _ _ known thread => ?_, ?_,
      leading.counters.step leading.cursors (Server.step_books moved moves) careful⟩
    · rw [Server.step_identity moved moves] at role
      rw [inTerm]
      exact grows.leader _ _ (leading.office role)
    · rw [inTerm]
      exact simulates.threads_step record listed moved steady moves known thread
    · rw [inTerm]
      exact (simulates.cursors_step record delivered moved steady moves).mono
        fun _ _ acknowledged => acknowledged.trans (grows.acked _ _)

/-! ## What is committed and handed over -/

/-- The entries after the sentinel up to an index, continued up to a greater one. -/
theorem drop_take_append {log : List LogEntry} {first last : Nat} (inside : last < log.length)
    (upTo : first ≤ last) :
    (log.take (first + 1)).drop 1 ++ (log.take (last + 1)).drop (first + 1) =
      (log.take (last + 1)).drop 1 := by
  have shorter : log.take (first + 1) = (log.take (last + 1)).take (first + 1) := by
    rw [List.take_take, Nat.min_eq_left (by omega)]
  have some : 1 ≤ ((log.take (last + 1)).take (first + 1)).length := by
    rw [List.length_take, List.length_take]
    omega
  rw [shorter, ← List.drop_append_of_le_length some, List.take_append_drop]

/-- What is committed stays in the log. -/
theorem committed_kept (simulates : Simulates config history cluster)
    (delivered : cluster.Delivered self event)
    (moved : (cluster self).server.step (config.info self) event = some result)
    (steady : (cluster self).Steady (config.info self) event) {common : List LogEntry}
    (inLog : common <+: (cluster self).server.state.entries)
    (committed : history.Committed config.srvList [{}] (history.current self) common) :
    common <+: result.1.state.entries := by
  cases event with
  | rpcAppendEntries msg =>
      by_cases accepts : (cluster self).server.Accepts msg
      · obtain ⟨-, leads, -, replaced⟩ := simulates.accepted delivered moved accepts
        have upTo : history.current self ≤ msg.term :=
          (simulates.present self).term.trans_le (steady.2 accepts)
        refine replaced.keeps (List.take_prefix _ _) inLog ?_
        exact committed.prefix_record simulates.sound sentinel_oldest (by simp) upTo
          (by simp [leads])
      · rw [Server.step_entries moved, Server.entriesAfter, if_neg accepts]
        exact inLog
  | rpcAddLog msg =>
      rw [Server.step_entries moved, Server.entriesAfter]
      split_ifs
      · exact inLog.trans (List.prefix_append _ _)
      · exact inLog
  | _ =>
      rw [Server.step_entries moved]
      exact inLog

/-- A counter that commits an index counts servers that have acknowledged its entry. -/
theorem majority_of_commits {target : ServerId} {idx : Nat}
    (moved : (cluster self).server.step (config.info self) (.countReplica target) = some result)
    (commits : (cluster self).server.Commits (config.info self) target idx) (positive : 0 < idx)
    (listed : self ∈ config.srvList) (leading : Leading (config.info self) later self result.1)
    (own : idx + 1 ≤ later.acked self (cluster self).server.leader.initTerm) :
    Majority config.srvList
      fun id => idx + 1 ≤ later.acked id (cluster self).server.leader.initTerm := by
  obtain ⟨inTerm, -, -⟩ := Server.step_office moved (by simp)
  obtain ⟨replicateNum, counter, many⟩ := Server.step_counts moved commits
  refine leading.counters.majority config.nodup listed own (fun id other counted => ?_) counter many
  cases present : result.1.leader.followerNodes id with
  | none =>
      simp [LeaderImpl.countedTo, present] at counted
      omega
  | some node =>
      rw [countedTo_of_known present] at counted
      have within := leading.counters.within id node present
      have acknowledged := leading.cursors.acknowledged id node present
      rw [inTerm] at acknowledged
      omega

/-- An index that a leader commits ends a chosen beginning of its record. -/
theorem chosen_of_commits (simulates : Simulates config history cluster)
    (record : Cluster.SenderRecord config cluster) (listed : self ∈ config.srvList)
    {target : ServerId} {idx : Nat}
    (moved : (cluster self).server.step (config.info self) (.countReplica target) = some result)
    (steady : (cluster self).Steady (config.info self) (.countReplica target))
    (commits : (cluster self).server.Commits (config.info self) target idx)
    (raised : (cluster self).server.state.commitIdx < idx)
    (sound : Sound LogEntry.term config.srvList [{}] later) (grows : Extends history later)
    (leading : Leading (config.info self) later self result.1) :
    later.Chosen config.srvList (cluster self).server.leader.initTerm (idx + 1) ∧
      (cluster self).server.state.entries.take (idx + 1) <+:
        (later.record (cluster self).server.leader.initTerm).take (idx + 1) := by
  obtain ⟨node, _, known, -, -⟩ := Server.step_countReplica.mp moved
  have role := (record.tidy _).role_of_known known
  have leads := grows.leader _ _ ((simulates.leading self).office role)
  have office := sound.offices _ self leads
  -- the guard: the entry is of the leader's own term
  obtain ⟨entry, present, own⟩ : ∃ entry,
      (cluster self).server.state.entries[idx]? = some entry ∧
        entry.term = (cluster self).server.leader.initTerm := by
    refine termAt_eq_some.mp ?_
    by_contra other
    exact steady.2 ⟨target, rfl, idx, commits.1, commits, raised, other⟩
  have rooted := simulates.sound.rooted self
  rw [(simulates.present self).log] at rooted
  have begins : (cluster self).server.state.entries.take (idx + 1) <+:
      later.record (cluster self).server.leader.initTerm := by
    rw [← own]
    exact (rooted idx entry present).trans (grows.record _)
  have long : ((cluster self).server.state.entries.take (idx + 1)).length = idx + 1 :=
    List.length_take_of_le (List.getElem?_eq_some_iff.mp present).1
  have inside : idx + 1 ≤ (later.record (cluster self).server.leader.initTerm).length :=
    long.symm.trans_le begins.length_le
  have found : (later.record (cluster self).server.leader.initTerm)[idx]? = some entry := by
    refine getElem?_of_prefix begins ?_
    rw [List.getElem?_take_of_lt (Nat.lt_succ_self idx), present]
  have chosen : later.Chosen config.srvList (cluster self).server.leader.initTerm (idx + 1) :=
    { led := by simp [leads]
      own := Nat.lt_succ_of_le (office.base_length_le found own)
      inside
      acknowledged := majority_of_commits moved commits (Nat.zero_lt_of_lt raised) listed leading
        (inside.trans_eq office.counted.symm) }
  exact ⟨chosen, List.prefix_take_iff.mpr ⟨begins, long.le⟩⟩

/-- The committed beginning of a log is the same after a step. -/
theorem committed_prefix (simulates : Simulates config history cluster)
    (delivered : cluster.Delivered self event)
    (moved : (cluster self).server.step (config.info self) event = some result)
    (steady : (cluster self).Steady (config.info self) event) :
    (cluster self).server.state.commitIdx < result.1.state.entries.length ∧
      (cluster self).server.state.entries.take ((cluster self).server.state.commitIdx + 1) =
        result.1.state.entries.take ((cluster self).server.state.commitIdx + 1) := by
  have handed := simulates.handed self
  have kept := simulates.committed_kept delivered moved steady (List.take_prefix _ _)
    handed.committed
  have long : ((cluster self).server.state.entries.take
      ((cluster self).server.state.commitIdx + 1)).length =
        (cluster self).server.state.commitIdx + 1 := List.length_take_of_le handed.inside
  have fits := kept.length_le
  have same := List.prefix_iff_eq_take.mp kept
  rw [long] at fits same
  exact ⟨fits, same⟩

/-- A commit index taken from an accepted request is committed. -/
theorem committed_of_accepted (simulates : Simulates config history cluster)
    {msg : AppendEntriesMessage} (delivered : cluster.Delivered self (.rpcAppendEntries msg))
    (moved : (cluster self).server.step (config.info self) (.rpcAppendEntries msg) = some result)
    (accepts : (cluster self).server.Accepts msg)
    (reached : result.1.state.commitIdx = min msg.commitIdx (result.1.state.entries.length - 1)) :
    result.1.state.commitIdx = msg.commitIdx ∧
      result.1.state.commitIdx < result.1.state.entries.length ∧
      history.Committed config.srvList [{}] msg.term
        (result.1.state.entries.take (result.1.state.commitIdx + 1)) := by
  obtain ⟨-, -, inside, replaced⟩ := simulates.accepted delivered moved accepts
  obtain ⟨-, -, -, below, committed⟩ :=
    (simulates.spoken msg.leaderId).appends self msg delivered
  have long := List.length_take_of_le inside
  have begins := List.prefix_iff_eq_take.mp replaced.begins
  have fits := replaced.begins.length_le
  rw [long] at begins fits
  have sameIdx : result.1.state.commitIdx = msg.commitIdx := by omega
  have slice : result.1.state.entries.take (msg.commitIdx + 1) =
      (history.record msg.term).take (msg.commitIdx + 1) := by
    have taken := congrArg (List.take (msg.commitIdx + 1)) begins
    rw [List.take_take, List.take_take, Nat.min_eq_left (by omega)] at taken
    exact taken.symm
  rw [sameIdx, slice]
  exact ⟨rfl, by omega, committed⟩

/-- The log up to the commit index is committed after a step. -/
theorem committed_step (simulates : Simulates config history cluster)
    (record : Cluster.SenderRecord config cluster) (listed : self ∈ config.srvList)
    (delivered : cluster.Delivered self event)
    (moved : (cluster self).server.step (config.info self) event = some result)
    (steady : (cluster self).Steady (config.info self) event)
    (current : later.current self = ((cluster self).next result).seenTerm)
    (sound : Sound LogEntry.term config.srvList [{}] later) (grows : Extends history later)
    (leading : Leading (config.info self) later self result.1) :
    (cluster self).server.state.commitIdx ≤ result.1.state.commitIdx ∧
      result.1.state.commitIdx < result.1.state.entries.length ∧
      later.Committed config.srvList [{}] (later.current self)
        (result.1.state.entries.take (result.1.state.commitIdx + 1)) := by
  have handed := simulates.handed self
  rcases Server.step_commitIdx moved with
    still | ⟨msg, rfl, accepts, higher, reached⟩ | ⟨target, idx, rfl, commits, higher, reached⟩
  · obtain ⟨fits, same⟩ := simulates.committed_prefix delivered moved steady
    rw [still, ← same]
    exact ⟨Nat.le_refl _, fits, handed.committed.mono grows (grows.current self)⟩
  · obtain ⟨sameIdx, fits, committed⟩ :=
      simulates.committed_of_accepted delivered moved accepts reached
    have seen : msg.term = later.current self := by
      rw [current, Node.seenTerm_step moved steady]
      exact (if_pos accepts).symm
    exact ⟨by omega, fits, committed.mono grows seen.le⟩
  · obtain ⟨chosen, begins⟩ := simulates.chosen_of_commits record listed moved steady commits
      higher sound grows leading
    obtain ⟨node, _, known, -, -⟩ := Server.step_countReplica.mp moved
    have leads := (simulates.leading self).office ((record.tidy _).role_of_known known)
    have upTo := (sound.offices _ self (grows.leader _ _ leads)).reached
    have unchanged : result.1.state.entries = (cluster self).server.state.entries :=
      Server.step_entries moved
    obtain ⟨entry, present, -⟩ := termAt_eq_some.mp (not_not.mp fun other =>
      steady.2 ⟨target, rfl, idx, commits.1, commits, higher, other⟩)
    have within : idx < (cluster self).server.state.entries.length :=
      (List.getElem?_eq_some_iff.mp present).1
    rw [reached, unchanged]
    exact ⟨higher.le, within, .inr ⟨_, idx + 1, upTo, chosen, begins⟩⟩

/-- What a server has committed and handed over is committed in the history after a step. -/
theorem handed_step (simulates : Simulates config history cluster)
    (record : Cluster.SenderRecord config cluster) (listed : self ∈ config.srvList)
    (delivered : cluster.Delivered self event)
    (moved : (cluster self).server.step (config.info self) event = some result)
    (steady : (cluster self).Steady (config.info self) event)
    (current : later.current self = ((cluster self).next result).seenTerm)
    (sound : Sound LogEntry.term config.srvList [{}] later) (grows : Extends history later)
    (leading : Leading (config.info self) later self result.1) :
    Handed config.srvList later self ((cluster self).next result) := by
  obtain ⟨raised, within, committed⟩ := simulates.committed_step record listed delivered moved
    steady current sound grows leading
  have behind := (simulates.handed self).behind
  have soFar := (simulates.handed self).handed
  have before : (cluster self).server.state.entries.take
      ((cluster self).server.state.lastApplied + 1) =
        result.1.state.entries.take ((cluster self).server.state.lastApplied + 1) := by
    have same := (simulates.committed_prefix delivered moved steady).2
    have taken := congrArg (List.take ((cluster self).server.state.lastApplied + 1)) same
    rwa [List.take_take, List.take_take, Nat.min_eq_left (by omega)] at taken
  rw [before] at soFar
  rcases Server.step_handsOver moved with ⟨idle, nothing⟩ | ⟨ahead, caughtUp, new⟩
  · refine ⟨within, committed, ?_, ?_⟩
    · exact idle.trans_le (behind.trans raised)
    · rw [applied_append, soFar, nothing, List.append_nil, idle]
  · refine ⟨within, committed, caughtUp.le, ?_⟩
    dsimp only
    rw [applied_append, soFar, new, caughtUp, ← List.map_append]
    exact congrArg _ (drop_take_append within (behind.trans raised))

/-- Every steady step of the cluster is a run of the history. -/
theorem step {before after : Cluster} {label : ServerId × Event}
    (simulates : Simulates config history before) (record : Cluster.SenderRecord config before)
    (taken : Cluster.step config before label = some after)
    (steady : Cluster.Steady config before label after) :
    ∃ later, Relation.ReflTransGen (Step LogEntry.term config.srvList) history later ∧
      Simulates config later after := by
  have votes : ∀ id voter term, before.voted id voter term → after.voted id voter term :=
    fun _ _ _ => Cluster.voted_mono taken
  obtain ⟨listed, delivered, result, moved, rfl⟩ := Cluster.step_eq_some.mp taken
  obtain ⟨self, event⟩ := label
  dsimp only at listed delivered moved steady votes ⊢
  obtain ⟨later, follows⟩ := simulates.follows record listed delivered moved steady
  obtain ⟨sound, grows⟩ := Leadership.sound_of_run follows.run simulates.sound sentinel_oldest
  have current : later.current self = ((before self).next result).seenTerm := by
    rw [follows.current, Function.update_self]
  have leading := simulates.leading_step record listed delivered moved steady follows.learns grows
  have handed := simulates.handed_step record listed delivered moved steady current sound grows
    leading
  have spoken := simulates.spoken_step record listed moved steady follows.learns grows
  exact ⟨later, follows.run,
    { sound := sound
      leaders := fun term leader leads => by
        rcases follows.leaders term leader leads with old | elected
        · exact (simulates.leaders term leader old).mono (votes leader)
        · exact elected.mono (votes leader)
      present := (Function.forall_update_iff before fun id node => Present later id node).mpr
        ⟨⟨current, by rw [follows.log, Function.update_self]⟩, fun id other =>
          ⟨by rw [follows.current, Function.update_of_ne other, (simulates.present id).term],
            by rw [follows.log, Function.update_of_ne other, (simulates.present id).log]⟩⟩
      spoken := (Function.forall_update_iff before
        fun id node => Spoken config.srvList later id node.sent).mpr
          ⟨spoken, fun id _ => (simulates.spoken id).mono grows⟩
      leading := (Function.forall_update_iff before
        fun id node => Leading (config.info id) later id node.server).mpr
          ⟨leading, fun id _ => (simulates.leading id).mono grows⟩
      handed := (Function.forall_update_iff before
        fun id node => Handed config.srvList later id node).mpr
          ⟨handed, fun id _ => (simulates.handed id).mono grows⟩ }⟩

end Simulates

end Quintet
