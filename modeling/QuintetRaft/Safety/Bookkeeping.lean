import QuintetRaft.Library.Logs
import QuintetRaft.Library.Majority
import QuintetRaft.Model.Hazards
import QuintetRaft.Model.Threads

/-!
# The books of a leader

A leader keeps two cursors for each follower and one counter for each log entry.  The cursors
follow what the followers have acknowledged.  As long as the counting loops stay within that, a
counter never exceeds the number of servers that have the entry.
-/

namespace Quintet

namespace FollowerNode

/-- The cursors agree with the progress of the appending thread. -/
def Sound (node : FollowerNode) : Prop :=
  1 ≤ node.nextIdx ∧
    match node.appendingThread with
    | .finished => True
    | .trying oldMatchIdx _ => oldMatchIdx = node.matchIdx
    | .sending oldMatchIdx _ msg =>
        oldMatchIdx = node.matchIdx ∧ msg.prevLogIdx + 1 = node.nextIdx ∧ node.matchIdx < msg.reach
    | .counting idx => 1 ≤ idx

/-- The last index counted for the follower. -/
def countedTo (node : FollowerNode) : Nat :=
  match node.appendingThread with
  | .counting idx => idx - 1
  | _ => node.matchIdx

end FollowerNode

/-- The cursors are in order, given which numbers of log entries have been acknowledged by whom. -/
structure Cursors (info : ServerInfo) (acked : ServerId → Nat → Prop) (leader : LeaderImpl) :
    Prop where
  /-- Nodes belong to other servers of the cluster. -/
  others : ∀ target node, leader.followerNodes target = some node → target ∈ info.others
  /-- Cursors agree with the threads. -/
  sound : ∀ target node, leader.followerNodes target = some node → node.Sound
  /-- What is taken for replicated has been acknowledged. -/
  acknowledged : ∀ target node, leader.followerNodes target = some node →
    node.matchIdx = 0 ∨ acked target (node.matchIdx + 1)

variable {info : ServerInfo} {acked acked' : ServerId → Nat → Prop} {leader after : LeaderImpl}
  {srv : Server} {event : Event} {target : ServerId} {node changed : FollowerNode}

theorem known_update {nodes : ServerId → Option FollowerNode} {other : ServerId}
    {entry : FollowerNode}
    (present : Function.update nodes target (some changed) other = some entry) :
    other = target ∧ entry = changed ∨ nodes other = some entry := by
  by_cases same : other = target
  · subst same
    exact .inl ⟨rfl, by simpa using present.symm⟩
  · exact .inr (by simpa [same] using present)

namespace Cursors

theorem mono (cursors : Cursors info acked leader)
    (more : ∀ target count, acked target count → acked' target count) :
    Cursors info acked' leader :=
  { cursors with
    acknowledged := fun target node known =>
      (cursors.acknowledged target node known).imp_right (more target _) }

theorem update (cursors : Cursors info acked leader)
    (known : leader.followerNodes target = some node)
    (nodes : after.followerNodes = Function.update leader.followerNodes target (some changed))
    (sound : changed.Sound)
    (acknowledged : changed.matchIdx = 0 ∨ acked target (changed.matchIdx + 1)) :
    Cursors info acked after := by
  refine ⟨fun other entry present => ?_, fun other entry present => ?_,
    fun other entry present => ?_⟩
  all_goals
    rw [nodes] at present
    rcases known_update present with ⟨rfl, rfl⟩ | old
  · exact cursors.others _ _ known
  · exact cursors.others other entry old
  · exact sound
  · exact cursors.sound other entry old
  · exact acknowledged
  · exact cursors.acknowledged other entry old

end Cursors

/-- A move keeps the cursors in order, if messages reach beyond what was acknowledged before and
accepted messages count as acknowledged. -/
theorem NodeStep.sound (moved : NodeStep info srv target event node changed)
    (sound : node.Sound) (acknowledged : node.matchIdx = 0 ∨ acked target (node.matchIdx + 1))
    (covers : event = .sendAppendEntries target → node.matchIdx < srv.state.entries.length)
    (answered : ∀ msg term, event = .receiveAppendReply target msg (term, true) →
      acked target msg.reach) :
    changed.Sound ∧ (changed.matchIdx = 0 ∨ acked target (changed.matchIdx + 1)) := by
  cases moved with
  | start finished => exact ⟨⟨sound.1, rfl⟩, acknowledged⟩
  | stop idle => exact ⟨⟨sound.1, trivial⟩, acknowledged⟩
  | send thread built =>
      simp only [FollowerNode.Sound, thread] at sound
      obtain ⟨-, reach, next, -⟩ := createAppendEntriesMessage_eq_some built sound.1
      exact ⟨⟨sound.1, sound.2, next, reach ▸ covers rfl⟩, acknowledged⟩
  | retry thread =>
      simp only [FollowerNode.Sound, thread] at sound
      exact ⟨⟨sound.1, sound.2.1⟩, acknowledged⟩
  | @accepted _ oldMatchIdx retryTimes term msg thread =>
      simp only [FollowerNode.Sound, thread] at sound
      obtain ⟨positive, -, next, -⟩ := sound
      have reached := answered msg term rfl
      rw [AppendEntriesMessage.reach, next] at reached
      refine ⟨⟨Nat.le_add_right_of_le positive, Nat.succ_le_succ (Nat.zero_le _)⟩, .inr ?_⟩
      dsimp only
      rwa [Nat.sub_add_cancel (by omega)]
  | rejected thread later current =>
      simp only [FollowerNode.Sound, thread] at sound
      obtain ⟨positive, old, -⟩ := sound
      exact ⟨⟨by dsimp only; omega, old⟩, acknowledged⟩
  | finish thread ended => exact ⟨⟨sound.1, trivial⟩, acknowledged⟩

namespace Cursors

/-- A step keeps the cursors in order. -/
theorem step (cursors : Cursors info acked srv.leader) (books : BooksStep info srv event after)
    (covers : ∀ target node, event = .sendAppendEntries target →
      srv.leader.followerNodes target = some node → node.matchIdx < srv.state.entries.length)
    (answered : ∀ target msg term, event = .receiveAppendReply target msg (term, true) →
      acked target msg.reach) :
    Cursors info acked after := by
  cases books with
  | still same =>
      subst same
      exact cursors
  | adds msg adding idle stored same =>
      subst same
      exact ⟨cursors.others, cursors.sound, cursors.acknowledged⟩
  | added msg adding suspended same =>
      subst same
      exact ⟨cursors.others, cursors.sound, cursors.acknowledged⟩
  | moves target node changed known moved same =>
      subst same
      obtain ⟨sound, acknowledged⟩ := moved.sound (cursors.sound target node known)
        (cursors.acknowledged target node known) (fun sends => covers target node sends known)
        (answered target)
      exact cursors.update known rfl sound acknowledged
  | counts target node idx replicateNum counting known thread counter same =>
      subst same
      have sound := cursors.sound target node known
      exact cursors.update known rfl ⟨sound.1, Nat.succ_le_succ (Nat.zero_le idx)⟩
        (cursors.acknowledged target node known)

/-- A transformation closes the books and may open new ones. -/
theorem transform (tidy : srv.Tidy) {result : Server × List Output}
    (taken : srv.step info .transform = some result) (acked : ServerId → Nat → Prop) :
    Cursors info acked result.1.leader ∧
      ∀ target node, result.1.leader.followerNodes target = some node → node = {} := by
  obtain ⟨target, term, rest, -, -, rfl⟩ := Server.step_transform.mp taken
  have tidyRest : Server.Tidy { srv with events := rest } := ⟨tidy.requests, tidy.nodes⟩
  have closed := tidyRest.leave_nodes
  have fresh : ∀ other node,
      (Server.transform info target { srv with events := rest }).1.leader.followerNodes other =
        some node → other ∈ info.others ∧ node = {} := by
    intro other node known
    rw [Server.transform_leader] at known
    split_ifs at known
    · simp only [Server.leaderInit, closed, Option.getD_none] at known
      split_ifs at known with member
      exact ⟨member, (Option.some.inj known).symm⟩
    · simp [closed other] at known
  refine ⟨⟨fun other node known => (fresh other node known).1, fun other node known => ?_,
    fun other node known => ?_⟩, fun other node known => (fresh other node known).2⟩
  · rw [(fresh other node known).2]
    exact ⟨Nat.le_refl 1, trivial⟩
  · rw [(fresh other node known).2]
    exact .inl rfl

end Cursors

/-! ## The counters -/

/-- The last index counted for a server. -/
def LeaderImpl.countedTo (leader : LeaderImpl) (target : ServerId) : Nat :=
  ((leader.followerNodes target).map FollowerNode.countedTo).getD 0

/-- No replica is counted twice, or beyond what was acknowledged. -/
structure Counters (info : ServerInfo) (leader : LeaderImpl) : Prop where
  /-- The counting loops stay within what was acknowledged. -/
  within : ∀ target node, leader.followerNodes target = some node →
    node.countedTo ≤ node.matchIdx
  /-- A counter counts the leader and some of the followers counted up to its index. -/
  bounded : ∀ (idx count : Nat), leader.logStates[idx]? = some count →
    count ≤ 1 + info.others.countP (fun server => decide (idx ≤ leader.countedTo server))

theorem countedTo_of_known (known : leader.followerNodes target = some node) :
    leader.countedTo target = node.countedTo := by
  simp [LeaderImpl.countedTo, known]

theorem countedTo_of_update
    (nodes : after.followerNodes = Function.update leader.followerNodes target (some changed))
    (server : ServerId) :
    after.countedTo server =
      if server = target then changed.countedTo else leader.countedTo server := by
  by_cases same : server = target
  · simp [LeaderImpl.countedTo, nodes, same]
  · simp [LeaderImpl.countedTo, nodes, same]

/-- A move never takes back what was counted. -/
theorem NodeStep.countedTo_le (moved : NodeStep info srv target event node changed)
    (sound : node.Sound) (within : node.countedTo ≤ node.matchIdx) :
    node.countedTo ≤ changed.countedTo ∧ changed.countedTo ≤ changed.matchIdx := by
  cases moved with
  | start finished => simp [FollowerNode.countedTo, finished]
  | stop idle =>
      cases thread : node.appendingThread <;>
        simp_all [FollowerNode.countedTo, AppendingThread.isCounting]
  | send thread built => simp [FollowerNode.countedTo, thread]
  | retry thread => simp [FollowerNode.countedTo, thread]
  | accepted thread =>
      simp only [FollowerNode.Sound, thread] at sound
      obtain ⟨positive, old, next, further⟩ := sound
      rw [AppendEntriesMessage.reach, next] at further
      simp only [FollowerNode.countedTo, thread, Nat.add_sub_cancel]
      omega
  | rejected thread later current => simp [FollowerNode.countedTo, thread]
  | finish thread ended => exact ⟨within, Nat.le_refl _⟩

namespace Counters

/-- The counters of a move of one node. -/
theorem update (counters : Counters info leader)
    (known : leader.followerNodes target = some node)
    (nodes : after.followerNodes = Function.update leader.followerNodes target (some changed))
    (within : changed.countedTo ≤ changed.matchIdx)
    (bounded : ∀ (idx count : Nat), after.logStates[idx]? = some count →
      count ≤ 1 + info.others.countP (fun server => decide (idx ≤ after.countedTo server))) :
    Counters info after := by
  refine ⟨fun other entry present => ?_, bounded⟩
  rw [nodes] at present
  rcases known_update present with ⟨rfl, rfl⟩ | old
  · exact within
  · exact counters.within other entry old

/-- Whoever is counted up to an index before the move is counted up to it after the move. -/
theorem counted_mono (info : ServerInfo) (known : leader.followerNodes target = some node)
    (nodes : after.followerNodes = Function.update leader.followerNodes target (some changed))
    (more : node.countedTo ≤ changed.countedTo) (idx : Nat) :
    ∀ server ∈ info.others, decide (idx ≤ leader.countedTo server) = true →
      decide (idx ≤ after.countedTo server) = true := by
  intro server _ counted
  rw [decide_eq_true_iff] at counted ⊢
  rw [countedTo_of_update nodes]
  split_ifs with same
  · subst same
    rw [countedTo_of_known known] at counted
    omega
  · exact counted

/-- Counting a follower at the next index it is not counted at. -/
theorem count {idx replicateNum : Nat} (counters : Counters info leader)
    (cursors : Cursors info acked leader) (known : leader.followerNodes target = some node)
    (thread : node.appendingThread = .counting idx) (inside : idx ≤ node.matchIdx)
    (counter : leader.logStates[idx]? = some replicateNum)
    (nodes : after.followerNodes = Function.update leader.followerNodes target
      (some { node with appendingThread := .counting (idx + 1) }))
    (logStates : after.logStates = leader.logStates.set idx (replicateNum + 1)) :
    Counters info after := by
  have positive : 1 ≤ idx := by
    have sound := cursors.sound target node known
    simp only [FollowerNode.Sound, thread] at sound
    exact sound.2
  have before : node.countedTo = idx - 1 := by simp [FollowerNode.countedTo, thread]
  have later : FollowerNode.countedTo { node with appendingThread := .counting (idx + 1) } =
      idx := rfl
  refine counters.update known nodes inside fun other count present => ?_
  have more := counted_mono info known nodes (by omega) other
  rw [logStates] at present
  by_cases same : other = idx
  · subst same
    have present' : replicateNum + 1 = count := by
      simpa [(List.getElem?_eq_some_iff.mp counter).1] using present
    have old := counters.bounded other replicateNum counter
    have grows := List.countP_lt_countP more (cursors.others target node known)
      (by simp [countedTo_of_update nodes, later])
      (by simp [countedTo_of_known known, before]; omega)
    omega
  · have unchanged : leader.logStates[other]? = some count := by
      simpa [Ne.symm same] using present
    have old := counters.bounded other count unchanged
    have grows := List.countP_mono_left more
    omega

/-- A step whose counting loop stays within what was acknowledged keeps the counters bounded. -/
theorem step (counters : Counters info srv.leader) (cursors : Cursors info acked srv.leader)
    (books : BooksStep info srv event after) (careful : ¬ srv.CountsUnsent event) :
    Counters info after := by
  cases books with
  | still same =>
      subst same
      exact counters
  | adds msg adding idle stored same =>
      subst same
      exact ⟨counters.within, counters.bounded⟩
  | added msg adding suspended same =>
      subst same
      refine ⟨counters.within, fun idx count present => ?_⟩
      rcases Logs.getElem?_concat present with earlier | ⟨-, rfl⟩
      · exact counters.bounded idx count earlier
      · exact Nat.le_add_right 1 _
  | moves target node changed known moved same =>
      have nodes := congrArg LeaderImpl.followerNodes same
      have equal := congrArg LeaderImpl.logStates same
      obtain ⟨more, within⟩ := moved.countedTo_le (cursors.sound target node known)
        (counters.within target node known)
      refine counters.update known nodes within fun idx count present => ?_
      have before := counters.bounded idx count (equal ▸ present)
      have grows := List.countP_mono_left (counted_mono info known nodes more idx)
      omega
  | counts target node idx replicateNum counting known thread counter same =>
      subst counting
      have inside : idx ≤ node.matchIdx := by
        by_contra past
        exact careful ⟨target, rfl, node, known, idx,
          Server.countedIdx_of_counting known thread counter, Nat.lt_of_not_le past⟩
      exact counters.count cursors known thread inside counter
        (congrArg LeaderImpl.followerNodes same) (congrArg LeaderImpl.logStates same)

/-- A transformation resets the counters, or leaves a server that is no leader alone. -/
theorem transform (counters : Counters info srv.leader) (tidy : srv.Tidy)
    {result : Server × List Output} (taken : srv.step info .transform = some result) :
    Counters info result.1.leader := by
  obtain ⟨-, fresh⟩ := Cursors.transform tidy taken fun _ _ => True
  refine ⟨fun target node known => ?_, fun idx count present => ?_⟩
  · rw [fresh target node known]
    exact Nat.le_refl 0
  · obtain ⟨target, term, rest, -, -, rfl⟩ := Server.step_transform.mp taken
    rw [Server.transform_leader] at present ⊢
    split_ifs at present ⊢ with leads
    · have one : count = 1 := List.eq_of_mem_replicate (List.mem_of_getElem? present)
      omega
    · by_cases office : srv.identity = .leader
      · simp [Server.leave, office, Server.leaderLeave] at present
      · have same : (Server.leave { srv with events := rest }).leader = srv.leader := by
          unfold Server.leave
          split
          · rfl
          · exact absurd ‹_› office
          · rfl
        rw [same] at present ⊢
        exact counters.bounded idx count present

/-- A counter above one half means a majority, when the leader and all who are counted have a
property. -/
theorem majority (counters : Counters info leader) (distinct : info.srvList.Nodup)
    (listed : info.localId ∈ info.srvList) {holds : ServerId → Prop} {idx replicateNum : Nat}
    (own : holds info.localId)
    (counted : ∀ id ∈ info.others, idx ≤ leader.countedTo id → holds id)
    (counter : leader.logStates[idx]? = some replicateNum)
    (many : info.exceedsHalf replicateNum) : Majority info.srvList holds := by
  have bounded := counters.bounded idx replicateNum counter
  have notOther : info.localId ∉ info.others := fun member =>
    (ServerInfo.mem_others.mp member).2 rfl
  refine ⟨info.localId :: info.others.filter fun id => decide (idx ≤ leader.countedTo id),
    ?_, ?_, ?_, ?_⟩
  · refine List.nodup_cons.mpr ⟨fun member => notOther (List.mem_of_mem_filter member), ?_⟩
    exact (ServerInfo.others_nodup distinct).filter _
  · refine List.cons_subset.mpr ⟨listed, fun id member => ?_⟩
    exact (ServerInfo.mem_others.mp (List.mem_of_mem_filter member)).1
  · intro id member
    rcases List.mem_cons.mp member with rfl | kept
    · exact own
    · obtain ⟨other, within⟩ := List.mem_filter.mp kept
      exact counted id other (of_decide_eq_true within)
  · rw [List.length_cons, ← List.countP_eq_length_filter]
    unfold ServerInfo.exceedsHalf at many
    omega

end Counters

end Quintet
