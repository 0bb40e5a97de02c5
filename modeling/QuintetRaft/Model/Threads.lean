import QuintetRaft.Model.Appending
import QuintetRaft.Model.Roles

/-!
# Appending threads

The moves of the thread running `tryAppendEntries`, apart from the rest of the leader, and the
effect of a step on the private data of a leader in terms of them.
-/

namespace Quintet

/-- A move of the appending thread of `target` that counts nothing. -/
inductive NodeStep (info : ServerInfo) (srv : Server) (target : ServerId) :
    Event → FollowerNode → FollowerNode → Prop
  /-- The heartbeat starts the thread. -/
  | start {node : FollowerNode} (finished : node.appendingThread = .finished) :
      NodeStep info srv target (.startAppending target) node
        { node with appendingThread := .trying node.matchIdx 0 }
  /-- The thread returns without having been accepted. -/
  | stop {node : FollowerNode} {event : Event}
      (idle : node.appendingThread.isCounting = false) :
      NodeStep info srv target event node { node with appendingThread := .finished }
  /-- The thread sends a message. -/
  | send {node : FollowerNode} {oldMatchIdx retryTimes : Nat} {msg : AppendEntriesMessage}
      (thread : node.appendingThread = .trying oldMatchIdx retryTimes)
      (built : srv.createAppendEntriesMessage info node.nextIdx = some msg) :
      NodeStep info srv target (.sendAppendEntries target) node
        { node with appendingThread := .sending oldMatchIdx retryTimes msg }
  /-- The call fails and the thread tries again. -/
  | retry {node : FollowerNode} {oldMatchIdx retryTimes : Nat} {msg : AppendEntriesMessage}
      (thread : node.appendingThread = .sending oldMatchIdx retryTimes msg) :
      NodeStep info srv target (.failAppendEntries target) node
        { node with appendingThread := .trying oldMatchIdx (retryTimes + 1) }
  /-- The follower accepts the message. -/
  | accepted {node : FollowerNode} {oldMatchIdx retryTimes term : Nat}
      {msg : AppendEntriesMessage}
      (thread : node.appendingThread = .sending oldMatchIdx retryTimes msg) :
      NodeStep info srv target (.receiveAppendReply target msg (term, true)) node
        { nextIdx := node.nextIdx + msg.logEntries.length
          matchIdx := node.nextIdx + msg.logEntries.length - 1
          appendingThread := .counting (oldMatchIdx + 1) }
  /-- The follower rejects the message, which did not start at the first index. -/
  | rejected {node : FollowerNode} {oldMatchIdx retryTimes term : Nat}
      {msg : AppendEntriesMessage}
      (thread : node.appendingThread = .sending oldMatchIdx retryTimes msg)
      (later : node.nextIdx ≠ 1) (current : term ≤ srv.state.currentTerm) :
      NodeStep info srv target (.receiveAppendReply target msg (term, false)) node
        { node with
          nextIdx := node.nextIdx - 1
          appendingThread := .trying oldMatchIdx retryTimes }
  /-- The counting loop ends. -/
  | finish {node : FollowerNode} {idx : Nat} (thread : node.appendingThread = .counting idx)
      (ended : srv.leader.logStates[idx]? = none) :
      NodeStep info srv target (.countReplica target) node
        { node with appendingThread := .finished }

/-- Only a thread that has just sent its message starts to wait for an answer. -/
theorem NodeStep.sending {info : ServerInfo} {srv : Server} {target : ServerId} {event : Event}
    {node changed : FollowerNode} {oldMatchIdx retryTimes : Nat} {msg : AppendEntriesMessage}
    (moved : NodeStep info srv target event node changed)
    (thread : changed.appendingThread = .sending oldMatchIdx retryTimes msg) :
    event = .sendAppendEntries target ∧
      srv.createAppendEntriesMessage info node.nextIdx = some msg := by
  cases moved with
  | send _ built =>
      obtain ⟨-, -, rfl⟩ := AppendingThread.sending.inj thread
      exact ⟨rfl, built⟩
  | _ => exact nomatch thread

/-- What an event does to the private data of a leader. -/
inductive BooksStep (info : ServerInfo) (srv : Server) (event : Event) (after : LeaderImpl) : Prop
  /-- Nothing. -/
  | still (same : after = srv.leader)
  /-- An `addLog` has extended the log and is about to extend the counters. -/
  | adds (msg : AddLogMessage) (adding : event = .rpcAddLog msg)
      (idle : srv.leader.addingLog = none)
      (stored : srv.identity = .leader ∧ ¬ Server.holdsOperation srv.state msg)
      (same : after = { srv.leader with addingLog := some msg })
  /-- It extends the counters. -/
  | added (msg : AddLogMessage) (adding : event = .addLogState)
      (suspended : srv.leader.addingLog = some msg)
      (same : after =
        { srv.leader with logStates := srv.leader.logStates ++ [1], addingLog := none })
  /-- One thread moves and counts nothing. -/
  | moves (target : ServerId) (node changed : FollowerNode)
      (known : srv.leader.followerNodes target = some node)
      (moved : NodeStep info srv target event node changed)
      (same : after =
        { srv.leader with
          followerNodes := Function.update srv.leader.followerNodes target (some changed) })
  /-- One thread counts a replica. -/
  | counts (target : ServerId) (node : FollowerNode) (idx replicateNum : Nat)
      (counting : event = .countReplica target)
      (known : srv.leader.followerNodes target = some node)
      (thread : node.appendingThread = .counting idx)
      (counter : srv.leader.logStates[idx]? = some replicateNum)
      (same : after =
        { srv.leader with
          followerNodes := Function.update srv.leader.followerNodes target
            (some { node with appendingThread := .counting (idx + 1) })
          logStates := srv.leader.logStates.set idx (replicateNum + 1) })

namespace Server

variable {info : ServerInfo} {srv : Server} {event : Event} {result : Server × List Output}

/-- Away from transformations every step is one of these moves. -/
theorem step_books (taken : step info srv event = some result) (kept : event ≠ .transform) :
    BooksStep info srv event result.1.leader := by
  cases event with
  | transform => exact absurd rfl kept
  | rpcAddLog msg =>
      obtain ⟨idle, rfl⟩ := step_rpcAddLog.mp taken
      by_cases role : srv.identity = .leader
      · by_cases held : holdsOperation srv.state msg
        · exact .still (by simp [rpcAddLog, role, addLog, held])
        · exact .adds msg rfl idle ⟨role, held⟩
            (by simp [rpcAddLog, role, addLog, held, pushEntry])
      · exact .still (by unfold rpcAddLog; split <;> simp_all)
  | addLogState =>
      obtain ⟨msg, suspended, -, rfl⟩ := step_addLogState.mp taken
      exact .added msg rfl suspended rfl
  | startAppending target =>
      obtain ⟨node, known, finished, rfl⟩ := step_startAppending.mp taken
      exact .moves target node _ known (.start finished) rfl
  | interruptAppending target =>
      obtain ⟨node, known, idle, rfl⟩ := step_interruptAppending.mp taken
      exact .moves target node _ known (.stop idle) rfl
  | sendAppendEntries target =>
      obtain ⟨node, oldMatchIdx, retryTimes, msg, known, thread, built, rfl⟩ :=
        step_sendAppendEntries.mp taken
      exact .moves target node _ known (.send thread built) rfl
  | failAppendEntries target =>
      obtain ⟨node, oldMatchIdx, retryTimes, msg, known, thread, rfl⟩ :=
        step_failAppendEntries.mp taken
      unfold retryAppending
      split_ifs
      · exact .moves target node _ known (.stop (by rw [thread]; rfl)) rfl
      · exact .moves target node _ known (.retry thread) rfl
  | receiveAppendReply target msg reply =>
      obtain ⟨node, oldMatchIdx, retryTimes, known, thread, rfl⟩ :=
        step_receiveAppendReply.mp taken
      obtain ⟨term, success⟩ := reply
      have idle : node.appendingThread.isCounting = false := by rw [thread]; rfl
      unfold receiveAppendReply
      split_ifs with accepted greater first
      · obtain rfl := accepted
        exact .moves target node _ known (.accepted thread) rfl
      · exact .moves target node _ known (.stop idle) (by simp [finishAppending])
      · exact .moves target node _ known (.stop idle) rfl
      · obtain rfl := Bool.eq_false_of_not_eq_true accepted
        exact .moves target node _ known (.rejected thread first (Nat.le_of_not_lt greater)) rfl
  | countReplica target =>
      obtain ⟨node, idx, known, thread, rfl⟩ := step_countReplica.mp taken
      cases counter : srv.leader.logStates[idx]? with
      | none =>
          exact .moves target node _ known (.finish thread counter)
            (by simp [countReplica, counter, finishAppending])
      | some replicateNum =>
          refine .counts target node idx replicateNum rfl known thread counter ?_
          simp only [countReplica, counter]
          split_ifs <;> rfl
  | _ =>
      rw [step_leader_of_quiet taken trivial]
      exact .still rfl

/-- An iteration that commits leaves a counter above one half. -/
theorem step_counts {target : ServerId} {idx : Nat}
    (taken : step info srv (.countReplica target) = some result)
    (commits : srv.Commits info target idx) :
    ∃ replicateNum, result.1.leader.logStates[idx]? = some replicateNum ∧
      info.exceedsHalf replicateNum := by
  obtain ⟨known, replicateNum, counter, many⟩ := commits
  obtain ⟨node, cursor, found, thread, rfl⟩ := step_countReplica.mp taken
  have inside : idx < srv.leader.logStates.length := (List.getElem?_eq_some_iff.mp counter).1
  obtain rfl : cursor = idx := by
    simp only [countedIdx, found, Option.bind_some, thread] at known
    split_ifs at known
    exact Option.some.inj known
  refine ⟨replicateNum + 1, ?_, many⟩
  simp only [countReplica, Option.mem_def.mp counter, if_pos many]
  simp [raiseCommit, inside]

/-- Updating the node of a known follower makes no new node. -/
theorem update_none {nodes : ServerId → Option FollowerNode} {target other : ServerId}
    {node : FollowerNode} (changed : FollowerNode) (known : nodes target = some node)
    (absent : nodes other = none) :
    Function.update nodes target (some changed) other = none := by
  have apart : other ≠ target := fun same => by simp [same, known] at absent
  rw [Function.update_of_ne apart, absent]

/-- Only a transformation starts a leadership, and only a leader has follower nodes. -/
theorem step_office (taken : step info srv event = some result) (kept : event ≠ .transform) :
    result.1.leader.initTerm = srv.leader.initTerm ∧
      result.1.leader.initSize = srv.leader.initSize ∧
      ∀ target, srv.leader.followerNodes target = none →
        result.1.leader.followerNodes target = none := by
  cases step_books taken kept with
  | still same =>
      rw [same]
      exact ⟨rfl, rfl, fun _ absent => absent⟩
  | adds msg adding idle stored same =>
      rw [same]
      exact ⟨rfl, rfl, fun _ absent => absent⟩
  | added msg adding suspended same =>
      rw [same]
      exact ⟨rfl, rfl, fun _ absent => absent⟩
  | moves target node changed known moved same =>
      rw [same]
      exact ⟨rfl, rfl, fun _ absent => update_none _ known absent⟩
  | counts target node idx replicateNum counting known thread counter same =>
      rw [same]
      exact ⟨rfl, rfl, fun _ absent => update_none _ known absent⟩

/-! ## Tidy servers -/

/-- A server has requests in flight only as a candidate and follower nodes only as a leader. -/
structure Tidy (srv : Server) : Prop where
  /-- Vote requests belong to a candidacy. -/
  requests : srv.identity ≠ .candidate → srv.candidate.requests = []
  /-- Follower nodes belong to a leadership. -/
  nodes : srv.identity ≠ .leader → ∀ target, srv.leader.followerNodes target = none

theorem tidy_init : Tidy {} where
  requests _ := rfl
  nodes _ _ := rfl

namespace Tidy

/-- Only a leader knows follower nodes. -/
theorem role_of_known (tidy : srv.Tidy) {target : ServerId} {node : FollowerNode}
    (known : srv.leader.followerNodes target = some node) : srv.identity = .leader := by
  by_contra other
  simp [tidy.nodes other target] at known

theorem leave_requests (tidy : srv.Tidy) : srv.leave.candidate.requests = [] := by
  unfold leave
  split
  · rfl
  · exact tidy.requests (by simp_all)
  · exact tidy.requests ‹_›

theorem leave_nodes (tidy : srv.Tidy) (target : ServerId) :
    srv.leave.leader.followerNodes target = none := by
  unfold leave
  split
  · exact tidy.nodes (by simp_all) target
  · rfl
  · exact tidy.nodes ‹_› target

/-- Every step leaves a tidy server tidy. -/
theorem step (tidy : srv.Tidy) (taken : Server.step info srv event = some result) :
    result.1.Tidy := by
  by_cases moves : event = .transform
  · subst moves
    obtain ⟨target, term, rest, -, -, rfl⟩ := step_transform.mp taken
    have tidyRest : Tidy { srv with events := rest } := ⟨tidy.requests, tidy.nodes⟩
    refine ⟨fun other => ?_, fun other follower => ?_⟩
    · rw [transform_identity] at other
      rw [transform_candidate, if_neg other]
      exact tidyRest.leave_requests
    · rw [transform_identity] at other
      rw [transform_leader, if_neg other]
      exact tidyRest.leave_nodes follower
  · have sameRole := step_identity taken moves
    refine ⟨fun other => ?_, fun other follower => ?_⟩
    · have empty := tidy.requests (sameRole ▸ other)
      cases event with
      | receiveVote target msg reply =>
          obtain ⟨asked, -⟩ := step_receiveVote.mp taken
          simp [empty] at asked
      | transform => exact absurd rfl moves
      | _ => rw [(step_sameRole taken trivial).candidate, empty]
    · exact (step_office taken moves).2.2 follower (tidy.nodes (sameRole ▸ other) follower)

end Tidy

end Server

end Quintet
