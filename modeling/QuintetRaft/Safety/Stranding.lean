import Mathlib.Data.List.Dedup
import QuintetRaft.Model.AppendingLoop
import QuintetRaft.Model.Cluster
import QuintetRaft.Safety.Bookkeeping

/-!
# Replicated entries and the commit index

Every entry that a majority has, as far as the leader's cursors tell, is committed, if no counting
loop ends before the last entry its follower has acknowledged, step 5 of an append request does not
lower the leader's commit index, and no leader is a majority by itself.
-/

namespace Quintet

/-- The servers the leader keeps nodes for, each of them once. -/
def ServerInfo.followers (info : ServerInfo) : List ServerId := info.others.dedup

theorem ServerInfo.mem_followers {info : ServerInfo} {target : ServerId} :
    target ∈ info.followers ↔ target ∈ info.others := List.mem_dedup

/-- The index the thread is about to count. -/
def AppendingThread.cursor : AppendingThread → Option Nat
  | .counting idx => some idx
  | _ => none

namespace Server

/-- The servers that have the log up to an index, according to the leader: itself, and the followers
whose `matchIdx` is as great. -/
def replicas (info : ServerInfo) (srv : Server) (idx : Nat) : Nat :=
  1 + info.followers.countP fun target => (srv.leader.followerNodes target).any (idx ≤ ·.matchIdx)

/-- When no thread of a leader is between recording a replica and counting it, and no command is
between the log and the counters, every entry that a majority has is committed. -/
def NoneStranded (info : ServerInfo) (srv : Server) : Prop :=
  srv.identity = .leader → srv.leader.addingLog = none → srv.noneCounting info →
    ∀ idx < srv.state.entries.length, info.exceedsHalf (srv.replicas info idx) →
      idx ≤ srv.state.commitIdx

instance (info : ServerInfo) (srv : Server) : Decidable (srv.NoneStranded info) :=
  inferInstanceAs (Decidable (_ → _ → _ → ∀ _ < _, _ → _))

/-! ## How an entry is stranded -/

/-- A counting loop ends before the last entry that its follower has acknowledged. -/
def EndsEarly (srv : Server) (event : Event) : Prop :=
  ∃ target ∈ event.counting, ∃ node ∈ srv.leader.followerNodes target,
    ∃ idx ∈ node.appendingThread.cursor,
      srv.leader.logStates.length ≤ idx ∧ idx ≤ node.matchIdx

/-- An append request leaves the log of a leader shorter than its commit index says, and step 5
lowers the latter. -/
def LowersCommit (srv : Server) (event : Event) : Prop :=
  srv.identity = .leader ∧ ∃ msg ∈ event.appendRequest, srv.Accepts msg ∧
    srv.state.commitIdx < msg.commitIdx ∧ (srv.entriesAfter event).length ≤ srv.state.commitIdx

/-- The server is leader after the event. -/
def LeadsAfter (srv : Server) (event : Event) : Prop :=
  event = .transform ∧ srv.nextTarget = some .leader ∨
    event ≠ .transform ∧ srv.identity = .leader

instance (srv : Server) (event : Event) : Decidable (srv.LeadsAfter event) :=
  inferInstanceAs (Decidable (_ ∨ _))

/-- A server that is a majority by itself takes office with an entry it has not committed, or gets
one in office. -/
def StoresAlone (info : ServerInfo) (srv : Server) (event : Event) : Prop :=
  info.exceedsHalf 1 ∧ srv.LeadsAfter event ∧
    srv.state.commitIdx + 1 < (srv.entriesAfter event).length

/-- None of these happens. -/
def CountsInTime (info : ServerInfo) (srv : Server) (event : Event) : Prop :=
  ¬ srv.EndsEarly event ∧ ¬ srv.LowersCommit event ∧ ¬ srv.StoresAlone info event

instance (srv : Server) (event : Event) : Decidable (srv.EndsEarly event) :=
  inferInstanceAs (Decidable (∃ _ ∈ _, _))

instance (srv : Server) (event : Event) : Decidable (srv.LowersCommit event) :=
  inferInstanceAs (Decidable (_ ∧ _))

instance (info : ServerInfo) (srv : Server) (event : Event) :
    Decidable (srv.StoresAlone info event) := inferInstanceAs (Decidable (_ ∧ _))

instance (info : ServerInfo) (srv : Server) (event : Event) :
    Decidable (srv.CountsInTime info event) := inferInstanceAs (Decidable (_ ∧ _))

/-! ## The tally -/

/-- What a leader has counted: every counter counts at least the servers that have been counted up
to its index, and one that has reached a majority has been committed. -/
structure Tally (info : ServerInfo) (srv : Server) : Prop where
  /-- Nodes belong to other servers of the cluster. -/
  others : ∀ target node, srv.leader.followerNodes target = some node → target ∈ info.others
  /-- Until its request succeeds, a thread starts to count after `matchIdx`. -/
  old : ∀ target node oldMatchIdx, srv.leader.followerNodes target = some node →
    ((∃ retryTimes, node.appendingThread = .trying oldMatchIdx retryTimes) ∨
      ∃ retryTimes msg, node.appendingThread = .sending oldMatchIdx retryTimes msg) →
    oldMatchIdx = node.matchIdx
  /-- The sentinel has a counter. -/
  nonempty : 0 < srv.leader.logStates.length
  /-- What has been acknowledged has been counted. -/
  within : ∀ target node, srv.leader.followerNodes target = some node →
    node.appendingThread.isCounting = false → node.matchIdx < srv.leader.logStates.length
  /-- The counting loops are inside the counters. -/
  bounded : ∀ target node idx, srv.leader.followerNodes target = some node →
    node.appendingThread = .counting idx → idx ≤ srv.leader.logStates.length
  /-- No replica is missed. -/
  counted : ∀ (idx count : Nat), 0 < idx → srv.leader.logStates[idx]? = some count →
    1 + info.followers.countP (fun target => decide (idx ≤ srv.leader.countedTo target)) ≤ count
  /-- A majority is committed. -/
  committed : ∀ (idx count : Nat), srv.leader.logStates[idx]? = some count → 1 < count →
    info.exceedsHalf count → idx ≤ srv.state.commitIdx
  /-- A server that is a majority by itself has committed everything. -/
  alone : info.exceedsHalf 1 → srv.state.entries.length ≤ srv.state.commitIdx + 1

variable {info : ServerInfo} {srv : Server} {event : Event} {result : Server × List Output}

/-- While no thread counts, what has been counted is what has been acknowledged. -/
theorem countedTo_eq_matchIdx {node : FollowerNode}
    (idle : node.appendingThread.isCounting = false) : node.countedTo = node.matchIdx := by
  cases thread : node.appendingThread <;>
    simp_all [FollowerNode.countedTo, AppendingThread.isCounting]

theorem Tally.noneStranded (tally : srv.Tally info) : srv.NoneStranded info := by
  intro _ _ idle idx inside many
  rcases Nat.eq_zero_or_pos idx with rfl | positive
  · exact Nat.zero_le _
  · have same : ∀ target ∈ info.followers,
        ((srv.leader.followerNodes target).any (idx ≤ ·.matchIdx) = true ↔
          decide (idx ≤ srv.leader.countedTo target) = true) := by
      intro target member
      rw [decide_eq_true_iff]
      cases known : srv.leader.followerNodes target with
      | none => simp [LeaderImpl.countedTo, known, Nat.ne_of_gt positive]
      | some node =>
          have rests := idle target (ServerInfo.mem_followers.mp member) node known
          simp [countedTo_of_known known, countedTo_eq_matchIdx rests]
    rw [replicas, List.countP_congr same] at many
    rcases Nat.eq_zero_or_pos
        (info.followers.countP fun target => decide (idx ≤ srv.leader.countedTo target))
      with nobody | somebody
    · rw [nobody] at many
      have all := tally.alone many
      omega
    · obtain ⟨target, member, reaches⟩ := List.countP_pos_iff.mp somebody
      rw [decide_eq_true_iff] at reaches
      have counter : idx < srv.leader.logStates.length := by
        cases known : srv.leader.followerNodes target with
        | none =>
            simp only [LeaderImpl.countedTo, known, Option.map_none, Option.getD_none] at reaches
            omega
        | some node =>
            have rests := idle target (ServerInfo.mem_followers.mp member) node known
            rw [countedTo_of_known known, countedTo_eq_matchIdx rests] at reaches
            exact Nat.lt_of_le_of_lt reaches (tally.within target node known rests)
      have found := List.getElem?_eq_getElem counter
      have atLeast := tally.counted idx _ positive found
      refine tally.committed idx _ found (by omega) ?_
      unfold ServerInfo.exceedsHalf at many ⊢
      omega

namespace Tally

/-! ## Taking office -/

theorem transform (tidy : srv.Tidy) (taken : srv.step info .transform = some result)
    (leads : result.1.identity = .leader) (careful : ¬ srv.StoresAlone info .transform) :
    result.1.Tally info := by
  obtain ⟨cursors, fresh⟩ := Cursors.transform tidy taken fun _ _ => True
  obtain ⟨target, term, rest, queue, -, rfl⟩ := step_transform.mp taken
  rw [transform_identity] at leads
  subst leads
  have counters : (transform info .leader { srv with events := rest }).1.leader.logStates =
      List.replicate srv.state.entries.length 1 := by
    simp [transform_leader, leaderInit]
  have unmoved : ∀ other, (transform info .leader
      { srv with events := rest }).1.leader.countedTo other = 0 := by
    intro other
    unfold LeaderImpl.countedTo
    cases known : (transform info .leader { srv with events := rest }).1.leader.followerNodes other
      with
    | none => rfl
    | some node =>
        rw [fresh other node known]
        rfl
  refine
    { others := cursors.others
      old := fun other node oldMatchIdx known trying => ?_
      nonempty := ?_
      within := fun other node known _ => ?_
      bounded := fun other node idx known counting => ?_
      counted := fun idx count positive found => ?_
      committed := fun idx count found many _ => ?_
      alone := fun majority => ?_ }
  · rw [fresh other node known] at trying
    simp at trying
  · rw [counters, List.length_replicate]
    exact srv.state.entries_length_pos
  · rw [fresh other node known, counters, List.length_replicate]
    exact srv.state.entries_length_pos
  · rw [fresh other node known] at counting
    cases counting
  · rw [counters] at found
    obtain rfl : count = 1 := List.eq_of_mem_replicate (List.mem_of_getElem? found)
    have nobody : info.followers.countP (fun target => decide (idx ≤
        (transform info .leader { srv with events := rest }).1.leader.countedTo target)) = 0 := by
      simp [unmoved, Nat.ne_of_gt positive]
    omega
  · rw [counters] at found
    have one : count = 1 := List.eq_of_mem_replicate (List.mem_of_getElem? found)
    omega
  · by_contra past
    refine careful ⟨majority, .inl ⟨rfl, by simp [nextTarget, queue]⟩, ?_⟩
    rw [transform_state] at past
    simpa [entriesAfter] using past

/-! ## In office -/

variable {after : Server} {target : ServerId} {node changed : FollowerNode}

/-- One node changes, without anything being counted. -/
theorem update (tally : srv.Tally info) (known : srv.leader.followerNodes target = some node)
    (nodes : after.leader.followerNodes =
      Function.update srv.leader.followerNodes target (some changed))
    (logStates : after.leader.logStates = srv.leader.logStates)
    (commitIdx : srv.state.commitIdx ≤ after.state.commitIdx)
    (alone : info.exceedsHalf 1 → after.state.entries.length ≤ after.state.commitIdx + 1)
    (old : ∀ oldMatchIdx,
      ((∃ retryTimes, changed.appendingThread = .trying oldMatchIdx retryTimes) ∨
        ∃ retryTimes msg, changed.appendingThread = .sending oldMatchIdx retryTimes msg) →
      oldMatchIdx = changed.matchIdx)
    (within : changed.appendingThread.isCounting = false →
      changed.matchIdx < srv.leader.logStates.length)
    (bounded : ∀ idx, changed.appendingThread = .counting idx →
      idx ≤ srv.leader.logStates.length)
    (fewer : changed.countedTo ≤ node.countedTo) : after.Tally info where
  others other entry present := by
    rw [nodes] at present
    rcases known_update present with ⟨rfl, -⟩ | earlier
    · exact tally.others _ node known
    · exact tally.others other entry earlier
  old other entry oldMatchIdx present := by
    rw [nodes] at present
    rcases known_update present with ⟨-, rfl⟩ | earlier
    · exact old oldMatchIdx
    · exact tally.old other entry oldMatchIdx earlier
  nonempty := logStates ▸ tally.nonempty
  within other entry present := by
    rw [nodes] at present
    rw [logStates]
    rcases known_update present with ⟨-, rfl⟩ | earlier
    · exact within
    · exact tally.within other entry earlier
  bounded other entry idx present := by
    rw [nodes] at present
    rw [logStates]
    rcases known_update present with ⟨-, rfl⟩ | earlier
    · exact bounded idx
    · exact tally.bounded other entry idx earlier
  counted idx count positive found := by
    rw [logStates] at found
    have more : info.followers.countP (fun server => decide (idx ≤ after.leader.countedTo server)) ≤
        info.followers.countP (fun server => decide (idx ≤ srv.leader.countedTo server)) := by
      refine List.countP_mono_left fun server _ reaches => ?_
      rw [decide_eq_true_iff] at reaches ⊢
      rw [countedTo_of_update nodes] at reaches
      split_ifs at reaches with same
      · rw [same, countedTo_of_known known]
        exact reaches.trans fewer
      · exact reaches
    have before := tally.counted idx count positive found
    omega
  committed idx count found many majority := by
    rw [logStates] at found
    exact (tally.committed idx count found many majority).trans commitIdx
  alone := alone

/-- The books stay as they are. -/
theorem still (tally : srv.Tally info)
    (nodes : after.leader.followerNodes = srv.leader.followerNodes)
    (logStates : after.leader.logStates = srv.leader.logStates)
    (commitIdx : srv.state.commitIdx ≤ after.state.commitIdx)
    (alone : info.exceedsHalf 1 → after.state.entries.length ≤ after.state.commitIdx + 1) :
    after.Tally info where
  others := nodes ▸ tally.others
  old := nodes ▸ tally.old
  nonempty := logStates ▸ tally.nonempty
  within := by
    rw [nodes, logStates]
    exact tally.within
  bounded := by
    rw [nodes, logStates]
    exact tally.bounded
  counted := by
    simp only [LeaderImpl.countedTo, nodes, logStates]
    exact tally.counted
  committed idx count found many majority :=
    (tally.committed idx count (logStates ▸ found) many majority).trans commitIdx
  alone := alone

/-- A suspended `addLog` makes its counter.  No thread is counting meanwhile, so nobody has been
counted at its index. -/
theorem addLogState (tally : srv.Tally info) (idle : srv.noneCounting info) (msg : AddLogMessage) :
    (srv.addLogState info msg).1.Tally info where
  others := tally.others
  old := tally.old
  nonempty := by simp [Server.addLogState]
  within other entry present rests := by
    have earlier := tally.within other entry present rests
    simp only [Server.addLogState, List.length_append, List.length_singleton]
    omega
  bounded other entry idx present counting := by
    have earlier := tally.bounded other entry idx present counting
    simp only [Server.addLogState, List.length_append, List.length_singleton]
    omega
  counted idx count positive found := by
    rcases Logs.getElem?_concat found with earlier | ⟨rfl, rfl⟩
    · exact tally.counted idx count positive earlier
    · have nobody : info.followers.countP (fun server =>
          decide (srv.leader.logStates.length ≤ srv.leader.countedTo server)) = 0 := by
        refine List.countP_eq_zero.mpr fun server member => ?_
        rw [decide_eq_true_iff, Nat.not_le]
        cases known : srv.leader.followerNodes server with
        | none => simpa [LeaderImpl.countedTo, known] using tally.nonempty
        | some entry =>
            have rests := idle server (ServerInfo.mem_followers.mp member) entry known
            rw [countedTo_of_known known, countedTo_eq_matchIdx rests]
            exact tally.within server entry known rests
      exact (Nat.add_le_add_left nobody.le 1)
  committed idx count found many majority := by
    rcases Logs.getElem?_concat found with earlier | ⟨-, rfl⟩
    · exact tally.committed idx count earlier many majority
    · exact absurd many (Nat.lt_irrefl 1)
  alone := tally.alone

/-- No replica is missed when one more is counted. -/
theorem counted_count {idx replicateNum other count : Nat} (tally : srv.Tally info)
    (known : srv.leader.followerNodes target = some node)
    (thread : node.appendingThread = .counting idx)
    (counter : srv.leader.logStates[idx]? = some replicateNum)
    (nodes : after.leader.followerNodes = Function.update srv.leader.followerNodes target
      (some { node with appendingThread := .counting (idx + 1) }))
    (positive : 0 < other)
    (found : (srv.leader.logStates.set idx (replicateNum + 1))[other]? = some count) :
    1 + info.followers.countP (fun server => decide (other ≤ after.leader.countedTo server)) ≤
      count := by
  have inside : idx < srv.leader.logStates.length := (List.getElem?_eq_some_iff.mp counter).1
  have upTo : ∀ server, after.leader.countedTo server =
      if server = target then idx else srv.leader.countedTo server := countedTo_of_update nodes
  by_cases same : other = idx
  · subst same
    obtain rfl : replicateNum + 1 = count := by simpa [inside] using found
    have earlier := tally.counted other replicateNum positive counter
    have oneMore : info.followers.countP (fun server =>
        decide (other ≤ after.leader.countedTo server)) ≤
          info.followers.countP (fun server =>
            decide (other ≤ srv.leader.countedTo server)) + 1 := by
      refine List.countP_le_succ (List.nodup_dedup info.others) target fun server _ reaches => ?_
      rw [decide_eq_true_iff, upTo] at reaches
      split_ifs at reaches with acting
      · exact .inr acting
      · exact .inl (decide_eq_true reaches)
    omega
  · have unchanged : srv.leader.logStates[other]? = some count := by
      simpa [Ne.symm same] using found
    have earlier := tally.counted other count positive unchanged
    have before : srv.leader.countedTo target = idx - 1 := by
      rw [countedTo_of_known known]
      simp [FollowerNode.countedTo, thread]
    have fewer : info.followers.countP (fun server =>
        decide (other ≤ after.leader.countedTo server)) ≤
          info.followers.countP (fun server =>
            decide (other ≤ srv.leader.countedTo server)) := by
      refine List.countP_mono_left fun server _ reaches => ?_
      rw [decide_eq_true_iff] at reaches ⊢
      rw [upTo] at reaches
      split_ifs at reaches with acting
      · rw [acting, before]
        omega
      · exact reaches
    omega

/-- One more replica is counted, and the entry committed if that makes a majority. -/
theorem count {idx replicateNum : Nat} (tally : srv.Tally info)
    (known : srv.leader.followerNodes target = some node)
    (thread : node.appendingThread = .counting idx)
    (counter : srv.leader.logStates[idx]? = some replicateNum)
    (nodes : after.leader.followerNodes = Function.update srv.leader.followerNodes target
      (some { node with appendingThread := .counting (idx + 1) }))
    (logStates : after.leader.logStates = srv.leader.logStates.set idx (replicateNum + 1))
    (entries : after.state.entries = srv.state.entries)
    (commitIdx : srv.state.commitIdx ≤ after.state.commitIdx)
    (commits : info.exceedsHalf (replicateNum + 1) → idx ≤ after.state.commitIdx) :
    after.Tally info := by
  have inside : idx < srv.leader.logStates.length := (List.getElem?_eq_some_iff.mp counter).1
  refine
    { others := fun other entry present => ?_
      old := fun other entry oldMatchIdx present trying => ?_
      nonempty := by rw [logStates, List.length_set]; exact tally.nonempty
      within := fun other entry present rests => ?_
      bounded := fun other entry idx present counting => ?_
      counted := fun other count positive found =>
        tally.counted_count known thread counter nodes positive (logStates ▸ found)
      committed := fun other count found many majority => ?_
      alone := fun majority => by have all := tally.alone majority; rw [entries]; omega }
  · rw [nodes] at present
    rcases known_update present with ⟨rfl, -⟩ | earlier
    · exact tally.others _ node known
    · exact tally.others other entry earlier
  · rw [nodes] at present
    rcases known_update present with ⟨-, rfl⟩ | earlier
    · simp at trying
    · exact tally.old other entry oldMatchIdx earlier trying
  · rw [nodes] at present
    rw [logStates, List.length_set]
    rcases known_update present with ⟨-, rfl⟩ | earlier
    · simp [AppendingThread.isCounting] at rests
    · exact tally.within other entry earlier rests
  · rw [nodes] at present
    rw [logStates, List.length_set]
    rcases known_update present with ⟨-, rfl⟩ | earlier
    · obtain rfl := AppendingThread.counting.inj counting
      exact inside
    · exact tally.bounded other entry idx earlier counting
  · rw [logStates] at found
    by_cases same : other = idx
    · subst same
      obtain rfl : replicateNum + 1 = count := by simpa [inside] using found
      exact commits majority
    · have unchanged : srv.leader.logStates[other]? = some count := by
        simpa [Ne.symm same] using found
      exact (tally.committed other count unchanged many majority).trans commitIdx

/-- A thread counts its follower. -/
theorem countReplica {idx replicateNum : Nat} (tally : srv.Tally info)
    (known : srv.leader.followerNodes target = some node)
    (thread : node.appendingThread = .counting idx)
    (counter : srv.leader.logStates[idx]? = some replicateNum) :
    (srv.countReplica info target node idx).1.Tally info := by
  refine tally.count known thread counter ?_ ?_ ?_ ?_ ?_
  all_goals
    simp only [Server.countReplica, counter]
    split_ifs with majority
  · rfl
  · rfl
  · rfl
  · rfl
  · rfl
  · rfl
  · exact Nat.le_max_left _ _
  · exact Nat.le_refl _
  · exact fun _ => Nat.le_max_right _ _
  · exact fun other => absurd other majority

/-- A thread that counts nothing moves. -/
theorem moves (tally : srv.Tally info) (known : srv.leader.followerNodes target = some node)
    (moved : NodeStep info srv target event node changed)
    (same : after.leader = { srv.leader with
      followerNodes := Function.update srv.leader.followerNodes target (some changed) })
    (commitIdx : srv.state.commitIdx ≤ after.state.commitIdx)
    (alone : info.exceedsHalf 1 → after.state.entries.length ≤ after.state.commitIdx + 1)
    (careful : ¬ srv.EndsEarly event) : after.Tally info := by
  have nodes : after.leader.followerNodes =
      Function.update srv.leader.followerNodes target (some changed) := by rw [same]
  have logStates : after.leader.logStates = srv.leader.logStates := by rw [same]
  have within := tally.within target node known
  -- before its request has succeeded the thread has counted nothing beyond `matchIdx`
  have waits : ∀ oldMatchIdx,
      ((∃ retryTimes, node.appendingThread = .trying oldMatchIdx retryTimes) ∨
        ∃ retryTimes msg, node.appendingThread = .sending oldMatchIdx retryTimes msg) →
      oldMatchIdx = node.matchIdx ∧ node.countedTo = node.matchIdx ∧
        node.matchIdx < srv.leader.logStates.length := by
    intro oldMatchIdx waits
    have idle : node.appendingThread.isCounting = false := by
      rcases waits with ⟨_, trying⟩ | ⟨_, _, sending⟩
      · rw [trying]
        rfl
      · rw [sending]
        rfl
    exact ⟨tally.old target node oldMatchIdx known waits, countedTo_eq_matchIdx idle, within idle⟩
  cases moved with
  | start finished =>
      have idle : node.appendingThread.isCounting = false := by rw [finished]; rfl
      exact tally.update known nodes logStates commitIdx alone (by simp) (fun _ => within idle)
        (by simp) (countedTo_eq_matchIdx idle).ge
  | stop idle =>
      exact tally.update known nodes logStates commitIdx alone (by simp) (fun _ => within idle)
        (by simp) (countedTo_eq_matchIdx idle).ge
  | send thread built =>
      obtain ⟨rfl, counted, inside⟩ := waits _ (.inl ⟨_, thread⟩)
      exact tally.update known nodes logStates commitIdx alone (by simp) (fun _ => inside)
        (by simp) counted.ge
  | retry thread =>
      obtain ⟨rfl, counted, inside⟩ := waits _ (.inr ⟨_, _, thread⟩)
      exact tally.update known nodes logStates commitIdx alone (by simp) (fun _ => inside)
        (by simp) counted.ge
  | accepted thread =>
      obtain ⟨rfl, counted, inside⟩ := waits _ (.inr ⟨_, _, thread⟩)
      exact tally.update known nodes logStates commitIdx alone (by simp)
        (fun idle => by cases idle)
        (fun idx counting => by obtain rfl := AppendingThread.counting.inj counting; exact inside)
        counted.ge
  | rejected thread later current =>
      obtain ⟨rfl, counted, inside⟩ := waits _ (.inr ⟨_, _, thread⟩)
      exact tally.update known nodes logStates commitIdx alone (by simp) (fun _ => inside)
        (by simp) counted.ge
  | @finish _ idx thread ended =>
      have past := List.getElem?_eq_none_iff.mp ended
      have upTo := tally.bounded target node idx known thread
      have caught : node.matchIdx < idx := by
        by_contra early
        exact careful ⟨target, rfl, node, known, idx, by rw [thread]; rfl, past,
          Nat.le_of_not_lt early⟩
      have counted : node.countedTo = idx - 1 := by simp [FollowerNode.countedTo, thread]
      refine tally.update known nodes logStates commitIdx alone (by simp) (fun _ => ?_)
        (by simp) ?_
      · exact Nat.lt_of_lt_of_le caught upTo
      · rw [counted]
        exact Nat.le_sub_one_of_lt caught

/-- A step of a leader. -/
theorem step (tally : srv.Tally info) (taken : srv.step info event = some result)
    (kept : event ≠ .transform) (role : srv.identity = .leader)
    (careful : srv.CountsInTime info event) : result.1.Tally info := by
  obtain ⟨notEarly, notLowered, notAlone⟩ := careful
  have length := congrArg List.length (step_entries taken)
  have commitIdx : srv.state.commitIdx ≤ result.1.state.commitIdx := by
    rcases step_commitIdx taken with
      same | ⟨msg, rfl, accepts, raised, reached⟩ | ⟨target, idx, rfl, -, raised, reached⟩
    · exact same.ge
    · have long : ¬ (srv.entriesAfter (.rpcAppendEntries msg)).length ≤ srv.state.commitIdx :=
        fun short => notLowered ⟨role, msg, rfl, accepts, raised, short⟩
      omega
    · omega
  have alone : info.exceedsHalf 1 →
      result.1.state.entries.length ≤ result.1.state.commitIdx + 1 := by
    intro majority
    have short : ¬ srv.state.commitIdx + 1 < (srv.entriesAfter event).length :=
      fun long => notAlone ⟨majority, .inr ⟨kept, role⟩, long⟩
    omega
  cases step_books taken kept with
  | still same =>
      exact tally.still (congrArg LeaderImpl.followerNodes same)
        (congrArg LeaderImpl.logStates same) commitIdx alone
  | adds msg adding idle stored same =>
      exact tally.still (by rw [same]) (by rw [same]) commitIdx alone
  | added msg adding suspended same =>
      subst adding
      obtain ⟨stored, -, idle, rfl⟩ := step_addLogState.mp taken
      exact tally.addLogState idle stored
  | moves target node changed known moved same =>
      exact tally.moves known moved same commitIdx alone notEarly
  | counts target node idx replicateNum counting known thread counter same =>
      subst counting
      obtain ⟨found, cursor, present, counts, rfl⟩ := step_countReplica.mp taken
      obtain rfl : node = found := Option.some.inj (known.symm.trans present)
      obtain rfl := AppendingThread.counting.inj (thread.symm.trans counts)
      exact tally.countReplica known thread counter

end Tally

end Server

end Quintet
