import QuintetRaft.Model.Effects

/-!
# What a step emits

Where every output of a step comes from, what a step hands to the application, and which steps
change the queue and the private data of the identities.
-/

namespace Quintet

/-- The entries handed to the application by a list of outputs, oldest first. -/
def applied (outputs : List Output) : List BasicLogEntry :=
  outputs.flatMap fun
    | .apply entries => entries
    | _ => []

@[simp] theorem applied_nil : applied [] = [] := rfl

@[simp] theorem applied_append (left right : List Output) :
    applied (left ++ right) = applied left ++ applied right :=
  List.flatMap_append

namespace Server

variable {info : ServerInfo} {srv : Server} {result : Server × List Output} {event : Event}

/-- The request for votes of the candidacy a server would start now. -/
def candidacyMessage (info : ServerInfo) (srv : Server) : RequestVoteMessage :=
  { term := incrementTerm srv.state.currentTerm
    candidateId := info.localId
    lastLogIdx := srv.state.entries.length - 1
    lastLogTerm := srv.state.lastTerm }

@[simp] theorem leave_state : srv.leave.state = srv.state := by
  unfold leave; split <;> rfl

@[simp] theorem leave_events : srv.leave.events = srv.events := by
  unfold leave; split <;> rfl

@[simp] theorem leave_termTriggered : srv.leave.termTriggered = srv.termTriggered := by
  unfold leave; split <;> rfl

theorem transform_output {target : ServerIdentityNo} :
    (srv.transform info target).2 =
      if target = .candidate then
        .candidacy (incrementTerm srv.state.currentTerm) ::
          info.others.map (.requestVote · (srv.candidacyMessage info))
      else [] := by
  cases target <;> simp [transform, enter, candidateInit, campaign, createRequestVoteMessage,
    candidacyMessage, ServerState.lastTerm]
  split_ifs <;> simp

/-! ## Outputs -/

/-- What must have happened for a step to emit an output. -/
def Emits (info : ServerInfo) (srv : Server) (event : Event) : Output → Prop
  | .requestVote target msg =>
      event = .transform ∧ srv.nextTarget = some .candidate ∧ target ∈ info.others ∧
        msg = srv.candidacyMessage info
  | .appendEntries target msg =>
      event = .sendAppendEntries target ∧ ∃ node oldMatchIdx retryTimes,
        srv.leader.followerNodes target = some node ∧
        node.appendingThread = .trying oldMatchIdx retryTimes ∧
        srv.createAppendEntriesMessage info node.nextIdx = some msg
  | .voteReply msg reply =>
      event = .rpcRequestVote msg ∧ reply = (srv.rpcRequestVote msg).2.1
  | .appendReply msg reply =>
      event = .rpcAppendEntries msg ∧ reply = (srv.rpcAppendEntries msg).2.1
  | .candidacy term =>
      event = .transform ∧ srv.nextTarget = some .candidate ∧
        term = incrementTerm srv.state.currentTerm
  | .addLogReply _ _ => True
  | .apply _ =>
      match event with
      | .rpcRequestVote _ | .rpcAppendEntries _ | .countReplica _ => True
      | _ => False

theorem deferApply_output {body : Server × Reply} {output : Output}
    (member : output ∈ (deferApply body).2.2) : ∃ entries, output = .apply entries :=
  applyReadyEntries_output _ member

theorem rpcRequestVote_output {msg : RequestVoteMessage} {output : Output}
    (member : output ∈ (srv.rpcRequestVote msg).2.2) : ∃ entries, output = .apply entries := by
  rcases rpcRequestVote_cases srv msg with ⟨-, runs⟩ | ⟨-, rests⟩
  · rw [runs] at member
    exact deferApply_output member
  · simp [rests] at member

theorem rpcAppendEntries_output {msg : AppendEntriesMessage} {output : Output}
    (member : output ∈ (srv.rpcAppendEntries msg).2.2) : ∃ entries, output = .apply entries := by
  rcases rpcAppendEntries_cases srv msg with ⟨-, -, runs⟩ | ⟨-, term, rests⟩
  · rw [runs] at member
    exact deferApply_output member
  · simp [rests] at member

theorem rpcAddLog_output {msg : AddLogMessage} {output : Output}
    (member : output ∈ (srv.rpcAddLog info msg).2) :
    ∃ reply, output = .addLogReply msg reply := by
  unfold rpcAddLog addLog at member
  split at member
  · split_ifs at member
    · exact ⟨_, List.mem_singleton.mp member⟩
    · simp at member
  · exact ⟨_, List.mem_singleton.mp member⟩

theorem countReplica_output {target : ServerId} {node : FollowerNode} {idx : Nat}
    {output : Output} (member : output ∈ (srv.countReplica info target node idx).2) :
    ∃ entries, output = .apply entries := by
  unfold countReplica at member
  split at member
  · simp at member
  · exact applyReadyEntries_output _ member

/-- Every output of a step is one that the step explains. -/
theorem step_emits (taken : step info srv event = some result) {output : Output}
    (member : output ∈ result.2) : srv.Emits info event output := by
  cases event with
  | rpcRequestVote msg =>
      obtain ⟨-, rfl⟩ := step_rpcRequestVote.mp taken
      rcases List.mem_append.mp member with handed | answer
      · obtain ⟨_, rfl⟩ := rpcRequestVote_output handed
        trivial
      · obtain rfl := List.mem_singleton.mp answer
        exact ⟨rfl, rfl⟩
  | rpcAppendEntries msg =>
      obtain ⟨-, rfl⟩ := step_rpcAppendEntries.mp taken
      rcases List.mem_append.mp member with handed | answer
      · obtain ⟨_, rfl⟩ := rpcAppendEntries_output handed
        trivial
      · obtain rfl := List.mem_singleton.mp answer
        exact ⟨rfl, rfl⟩
  | rpcAddLog msg =>
      obtain ⟨-, rfl⟩ := step_rpcAddLog.mp taken
      obtain ⟨_, rfl⟩ := rpcAddLog_output member
      trivial
  | addLogState =>
      obtain ⟨_, -, -, rfl⟩ := step_addLogState.mp taken
      obtain rfl := List.mem_singleton.mp member
      trivial
  | timeout =>
      obtain ⟨-, rfl⟩ := step_timeout.mp taken
      simp at member
  | transform =>
      obtain ⟨target, term, rest, queue, -, rfl⟩ := step_transform.mp taken
      rw [transform_output] at member
      split_ifs at member with stands
      · have next : srv.nextTarget = some .candidate := by simp [nextTarget, queue, stands]
        rcases List.mem_cons.mp member with rfl | asked
        · exact ⟨rfl, next, rfl⟩
        · obtain ⟨other, listed, rfl⟩ := List.mem_map.mp asked
          exact ⟨rfl, next, listed, rfl⟩
      · simp at member
  | receiveVote target msg reply =>
      obtain ⟨-, rfl⟩ := step_receiveVote.mp taken
      simp at member
  | startAppending target =>
      obtain ⟨_, -, -, rfl⟩ := step_startAppending.mp taken
      simp at member
  | interruptAppending target =>
      obtain ⟨_, -, -, rfl⟩ := step_interruptAppending.mp taken
      simp at member
  | sendAppendEntries target =>
      obtain ⟨node, oldMatchIdx, retryTimes, msg, known, thread, built, rfl⟩ :=
        step_sendAppendEntries.mp taken
      obtain rfl := List.mem_singleton.mp member
      exact ⟨rfl, node, oldMatchIdx, retryTimes, known, thread, built⟩
  | failAppendEntries target =>
      obtain ⟨_, _, _, _, -, -, rfl⟩ := step_failAppendEntries.mp taken
      simp at member
  | receiveAppendReply target msg reply =>
      obtain ⟨_, _, _, -, -, rfl⟩ := step_receiveAppendReply.mp taken
      simp at member
  | countReplica target =>
      obtain ⟨_, _, -, -, rfl⟩ := step_countReplica.mp taken
      obtain ⟨_, rfl⟩ := countReplica_output member
      trivial

/-! ## Entries handed to the application -/

/-- A server hands nothing over, or exactly the entries between `lastApplied` and `commitIdx`. -/
def HandsOver (before after : ServerState) (outputs : List Output) : Prop :=
  after.lastApplied = before.lastApplied ∧ applied outputs = [] ∨
    before.lastApplied < after.commitIdx ∧ after.lastApplied = after.commitIdx ∧
      applied outputs = ((after.entries.take (after.commitIdx + 1)).drop
        (before.lastApplied + 1)).map LogEntry.toBasic

theorem applyReadyEntries_handsOver {before : ServerState}
    (kept : srv.state.lastApplied = before.lastApplied) :
    HandsOver before srv.applyReadyEntries.1.state srv.applyReadyEntries.2 := by
  unfold applyReadyEntries HandsOver
  split_ifs with ready
  · exact .inl ⟨kept, rfl⟩
  · refine .inr ⟨by simpa [← kept] using ready, rfl, ?_⟩
    simp [applied, kept]

theorem handsOver_append_silent {before after : ServerState} {outputs : List Output}
    {output : Output} (handed : HandsOver before after outputs) (silent : applied [output] = []) :
    HandsOver before after (outputs ++ [output]) := by
  simpa [HandsOver, silent] using handed

theorem handsOver_of_silent {before after : ServerState} {outputs : List Output}
    (kept : after.lastApplied = before.lastApplied)
    (silent : ∀ output ∈ outputs, ∀ entries, output ≠ .apply entries) :
    HandsOver before after outputs := by
  refine .inl ⟨kept, ?_⟩
  refine List.flatMap_eq_nil_iff.mpr fun output member => ?_
  cases output with
  | apply entries => exact absurd rfl (silent _ member entries)
  | _ => rfl

theorem rpcRequestVote_handsOver (msg : RequestVoteMessage) :
    HandsOver srv.state (srv.rpcRequestVote msg).1.state (srv.rpcRequestVote msg).2.2 := by
  rcases rpcRequestVote_cases srv msg with ⟨-, runs⟩ | ⟨-, rests⟩
  · rw [runs]
    exact applyReadyEntries_handsOver (by simp [requestVoteBody_eq])
  · rw [rests]
    exact .inl ⟨rfl, rfl⟩

theorem rpcAppendEntries_handsOver (msg : AppendEntriesMessage) :
    HandsOver srv.state (srv.rpcAppendEntries msg).1.state (srv.rpcAppendEntries msg).2.2 := by
  rcases rpcAppendEntries_cases srv msg with ⟨-, -, runs⟩ | ⟨-, term, rests⟩
  · rw [runs]
    refine applyReadyEntries_handsOver ?_
    rw [appendEntriesBody_eq]
    dsimp only
    split_ifs <;> simp
  · rw [rests]
    exact .inl ⟨rfl, rfl⟩

/-- Entries reach the application in the order of the log, without gaps. -/
theorem step_handsOver (taken : step info srv event = some result) :
    HandsOver srv.state result.1.state result.2 := by
  cases event with
  | rpcRequestVote msg =>
      obtain ⟨-, rfl⟩ := step_rpcRequestVote.mp taken
      exact handsOver_append_silent (rpcRequestVote_handsOver msg) rfl
  | rpcAppendEntries msg =>
      obtain ⟨-, rfl⟩ := step_rpcAppendEntries.mp taken
      exact handsOver_append_silent (rpcAppendEntries_handsOver msg) rfl
  | countReplica target =>
      obtain ⟨node, idx, -, -, rfl⟩ := step_countReplica.mp taken
      unfold countReplica
      split
      · refine .inl ⟨?_, rfl⟩
        dsimp only
        split_ifs <;> rfl
      · exact applyReadyEntries_handsOver rfl
  | rpcAddLog msg =>
      refine handsOver_of_silent ?_ fun _ member _ equal => by
        subst equal
        exact step_emits taken member
      obtain ⟨-, rfl⟩ := step_rpcAddLog.mp taken
      unfold rpcAddLog addLog
      split
      · split_ifs <;> rfl
      · rfl
  | transform =>
      refine handsOver_of_silent ?_ fun _ member _ equal => by
        subst equal
        exact step_emits taken member
      obtain ⟨target, term, rest, -, -, rfl⟩ := step_transform.mp taken
      rw [transform_state]
      split_ifs <;> rfl
  | receiveAppendReply target msg reply =>
      obtain ⟨_, _, _, -, -, rfl⟩ := step_receiveAppendReply.mp taken
      exact .inl ⟨by simp [receiveAppendReply_state], rfl⟩
  | _ =>
      refine handsOver_of_silent ?_ fun _ member _ equal => by
        subst equal
        exact step_emits taken member
      rw [step_state_of_quiet taken trivial]

/-! ## The commit index -/

/-- The index an iteration of a counting loop is about to count. -/
def countedIdx (srv : Server) (target : ServerId) : Option Nat :=
  (srv.leader.followerNodes target).bind fun node =>
    match node.appendingThread with
    | .counting idx => if idx < srv.leader.logStates.length then some idx else none
    | _ => none

/-- An iteration of a counting loop reaches a majority at an index. -/
def Commits (info : ServerInfo) (srv : Server) (target : ServerId) (idx : Nat) : Prop :=
  srv.countedIdx target = some idx ∧
    ∃ replicateNum ∈ srv.leader.logStates[idx]?, info.exceedsHalf (replicateNum + 1)

instance (target : ServerId) (idx : Nat) : Decidable (srv.Commits info target idx) :=
  inferInstanceAs (Decidable (_ ∧ _))

theorem countedIdx_of_counting {target : ServerId} {node : FollowerNode} {idx replicateNum : Nat}
    (known : srv.leader.followerNodes target = some node)
    (thread : node.appendingThread = .counting idx)
    (counter : srv.leader.logStates[idx]? = some replicateNum) :
    srv.countedIdx target = some idx := by
  have inside : idx < srv.leader.logStates.length := (List.getElem?_eq_some_iff.mp counter).1
  simp [countedIdx, known, thread, inside]

/-- A follower takes the commit index of an append request that it accepts. -/
theorem rpcAppendEntries_commitIdx (msg : AppendEntriesMessage) :
    (srv.rpcAppendEntries msg).1.state.commitIdx = srv.state.commitIdx ∨
      srv.Accepts msg ∧ srv.state.commitIdx < msg.commitIdx ∧
        (srv.rpcAppendEntries msg).1.state.commitIdx =
          min msg.commitIdx ((srv.rpcAppendEntries msg).1.state.entries.length - 1) := by
  rcases rpcAppendEntries_cases srv msg with ⟨serving, passes, runs⟩ | ⟨-, term, rests⟩
  · rw [runs, deferApply, appendEntriesBody_eq]
    by_cases matched : termAt srv.state.entries msg.prevLogIdx = some msg.prevLogTerm
    · by_cases raised : srv.state.commitIdx < msg.commitIdx
      · refine .inr ⟨⟨serving, passes, matched⟩, raised, ?_⟩
        simp [matched, ServerState.followCommit, raised]
      · left
        simp [matched, ServerState.followCommit, raised]
    · left
      simp [matched]
  · rw [rests]
    exact .inl rfl

/-- A leader commits an index that it counts often enough. -/
theorem countReplica_commitIdx {target : ServerId} {node : FollowerNode} {idx : Nat}
    (known : srv.leader.followerNodes target = some node)
    (thread : node.appendingThread = .counting idx) :
    (srv.countReplica info target node idx).1.state.commitIdx = srv.state.commitIdx ∨
      srv.Commits info target idx ∧ srv.state.commitIdx < idx ∧
        (srv.countReplica info target node idx).1.state.commitIdx = idx := by
  cases counter : srv.leader.logStates[idx]? with
  | none => simp [countReplica, counter, finishAppending]
  | some replicateNum =>
      simp only [countReplica, counter]
      by_cases majority : info.exceedsHalf (replicateNum + 1)
      · by_cases raised : srv.state.commitIdx < idx
        · refine .inr ⟨⟨countedIdx_of_counting known thread counter, replicateNum, counter,
            majority⟩, raised, ?_⟩
          simp [majority, raiseCommit, Nat.max_eq_right raised.le]
        · left
          simp [majority, raiseCommit, Nat.max_eq_left (Nat.le_of_not_lt raised)]
      · left
        simp [majority]

/-- How a step can change the commit index. -/
theorem step_commitIdx (taken : step info srv event = some result) :
    result.1.state.commitIdx = srv.state.commitIdx ∨
      (∃ msg, event = .rpcAppendEntries msg ∧ srv.Accepts msg ∧
        srv.state.commitIdx < msg.commitIdx ∧
        result.1.state.commitIdx = min msg.commitIdx (result.1.state.entries.length - 1)) ∨
      ∃ target idx, event = .countReplica target ∧ srv.Commits info target idx ∧
        srv.state.commitIdx < idx ∧ result.1.state.commitIdx = idx := by
  cases event with
  | rpcRequestVote msg =>
      obtain ⟨-, rfl⟩ := step_rpcRequestVote.mp taken
      left
      by_cases serving : srv.Serving
      · simp [rpcRequestVote_state serving]
      · simp [rpcRequestVote_of_not_serving serving]
  | rpcAppendEntries msg =>
      obtain ⟨-, rfl⟩ := step_rpcAppendEntries.mp taken
      rcases rpcAppendEntries_commitIdx msg with kept | raised
      · exact .inl kept
      · exact .inr (.inl ⟨msg, rfl, raised⟩)
  | countReplica target =>
      obtain ⟨node, idx, known, thread, rfl⟩ := step_countReplica.mp taken
      rcases countReplica_commitIdx known thread with kept | raised
      · exact .inl kept
      · exact .inr (.inr ⟨target, idx, rfl, raised⟩)
  | rpcAddLog msg =>
      obtain ⟨-, rfl⟩ := step_rpcAddLog.mp taken
      left
      unfold rpcAddLog addLog
      split
      · split_ifs <;> rfl
      · rfl
  | transform =>
      obtain ⟨target, term, rest, queue, -, rfl⟩ := step_transform.mp taken
      left
      rw [transform_state]
      split_ifs <;> rfl
  | receiveAppendReply target msg reply =>
      obtain ⟨_, _, _, -, -, rfl⟩ := step_receiveAppendReply.mp taken
      simp [receiveAppendReply_state]
  | _ =>
      left
      rw [step_state_of_quiet taken trivial]

end Server

end Quintet
