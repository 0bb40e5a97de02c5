import QuintetRaft.Model.AppendingLoop
import QuintetRaft.Model.Cluster

/-!
# The end of the loop

Whatever the follower answers, the loop of `tryAppendEntries` ends: every request either takes
`nextIdx` back, or uses up one of three failures, or is the last one.  A request is taken to get
an outcome or to be interrupted: where the loop of `RpcClient` has ended after an error there is no
outcome, and the thread waits for the interruption by the next heartbeat.
-/

namespace Quintet

variable {info : ServerInfo} {target : ServerId} {node current : FollowerNode}
  {start before after : Server} {event : Event} {requests : Nat}

namespace FollowerNode

/-- How many requests the loop may still make: it started with the cursors of `node` and has sent
`requests` so far.  Until a request succeeds `matchIdx` does not change. -/
def Within (node : FollowerNode) (requests : Nat) (current : FollowerNode) : Prop :=
  match current.appendingThread with
  | .trying _ retryTimes =>
      retryTimes ≤ 2 ∧ requests + current.nextIdx ≤ node.nextIdx + retryTimes ∧
        current.matchIdx = node.matchIdx
  | .sending _ retryTimes msg =>
      retryTimes ≤ 2 ∧ requests + current.nextIdx ≤ node.nextIdx + retryTimes + 1 ∧
        current.matchIdx = node.matchIdx ∧ msg.prevLogIdx + 1 = current.nextIdx
  | .finished => requests ≤ node.nextIdx + 2 ∧ current.matchIdx = node.matchIdx
  | .counting _ => requests ≤ node.nextIdx + 2 ∧ current.nextIdx = current.matchIdx + 1

/-- The message that is being sent reaches no further than the log. -/
def Covered (current : FollowerNode) (length : Nat) : Prop :=
  ∀ oldMatchIdx retryTimes msg, current.appendingThread = .sending oldMatchIdx retryTimes msg →
    msg.reach ≤ length

theorem Within.requests_le (within : node.Within requests current)
    (positive : 1 ≤ current.nextIdx) :
    requests ≤ node.nextIdx + 2 := by
  unfold Within at within
  split at within <;> omega

end FollowerNode

/-- What holds of the leader while the loop for one follower runs. -/
structure Looping (target : ServerId) (start : Server) (node : FollowerNode) (requests : Nat)
    (srv : Server) : Prop where
  /-- The cursors are inside the log, and the loop is within its limits. -/
  cursors : ∃ current, srv.leader.followerNodes target = some current ∧ 1 ≤ current.nextIdx ∧
    current.nextIdx ≤ srv.state.entries.length ∧ current.Covered srv.state.entries.length ∧
    node.Within requests current
  /-- The loop commits nothing. -/
  commitIdx : srv.state.commitIdx = start.state.commitIdx
  /-- It counts nothing; only commands extend the counters. -/
  logStates : ∃ added, srv.leader.logStates = start.leader.logStates ++ List.replicate added 1

namespace Looping

/-- The heartbeat starts the loop. -/
theorem startAppending (positive : 1 ≤ node.nextIdx)
    (inside : node.nextIdx ≤ start.state.entries.length) :
    Looping target start node 0 (start.startAppending target node) where
  cursors :=
    ⟨{ node with appendingThread := .trying node.matchIdx 0 }, by simp [Server.startAppending],
      positive, inside, fun _ _ _ sending => (by cases sending),
      by simp [FollowerNode.Within]⟩
  commitIdx := rfl
  logStates := ⟨0, by simp [Server.startAppending]⟩

/-- The thread goes on with other cursors. -/
theorem setNode (looping : Looping target start node requests before) {later : Nat}
    {changed : FollowerNode} (positive : 1 ≤ changed.nextIdx)
    (inside : changed.nextIdx ≤ before.state.entries.length)
    (covered : changed.Covered before.state.entries.length) (within : node.Within later changed) :
    Looping target start node later (before.setNode target changed) where
  cursors := ⟨changed, by simp, positive, inside, covered, within⟩
  commitIdx := looping.commitIdx
  logStates := looping.logStates

/-- The thread returns without having been accepted. -/
theorem finish (looping : Looping target start node requests before)
    (positive : 1 ≤ current.nextIdx) (inside : current.nextIdx ≤ before.state.entries.length)
    (within : requests ≤ node.nextIdx + 2) (unchanged : current.matchIdx = node.matchIdx) :
    Looping target start node requests (before.finishAppending target current) :=
  looping.setNode positive inside (fun _ _ _ sending => by cases sending) ⟨within, unchanged⟩

/-- A longer log, and more counters. -/
theorem extend (looping : Looping target start node requests before)
    (nodes : after.leader.followerNodes = before.leader.followerNodes)
    (longer : before.state.entries.length ≤ after.state.entries.length)
    (commitIdx : after.state.commitIdx = before.state.commitIdx)
    (logStates : ∃ added,
      after.leader.logStates = before.leader.logStates ++ List.replicate added 1) :
    Looping target start node requests after where
  cursors := by
    obtain ⟨current, known, positive, inside, covered, within⟩ := looping.cursors
    exact ⟨current, nodes ▸ known, positive, inside.trans longer,
      fun oldMatchIdx retryTimes msg sending =>
        (covered oldMatchIdx retryTimes msg sending).trans longer, within⟩
  commitIdx := commitIdx.trans looping.commitIdx
  logStates := by
    obtain ⟨earlier, equal⟩ := looping.logStates
    obtain ⟨added, extended⟩ := logStates
    refine ⟨earlier + added, ?_⟩
    rw [extended, equal, List.append_assoc, List.replicate_append_replicate]

/-! ## The steps -/

theorem sendAppendEntries (looping : Looping target start node requests before)
    {result : Server × List Output}
    (taken : before.step info (.sendAppendEntries target) = some result) :
    Looping target start node (requests + 1) result.1 := by
  obtain ⟨current, known, positive, inside, -, within⟩ := looping.cursors
  obtain ⟨found, oldMatchIdx, retryTimes, msg, present, trying, built, rfl⟩ :=
    Server.step_sendAppendEntries.mp taken
  obtain rfl : current = found := Option.some.inj (known.symm.trans present)
  obtain ⟨-, reach, next, -⟩ := createAppendEntriesMessage_eq_some built positive
  simp only [FollowerNode.Within, trying] at within
  obtain ⟨few, budget, unchanged⟩ := within
  refine looping.setNode positive inside ?_ ⟨few, by dsimp only; omega, unchanged, next⟩
  intro _ _ _ sending
  obtain ⟨-, -, rfl⟩ := AppendingThread.sending.inj sending
  exact reach.le

theorem failAppendEntries (looping : Looping target start node requests before)
    {result : Server × List Output}
    (taken : before.step info (.failAppendEntries target) = some result) :
    Looping target start node requests result.1 := by
  obtain ⟨current, known, positive, inside, -, within⟩ := looping.cursors
  obtain ⟨found, oldMatchIdx, retryTimes, msg, present, sending, rfl⟩ :=
    Server.step_failAppendEntries.mp taken
  obtain rfl : current = found := Option.some.inj (known.symm.trans present)
  have bounded := within.requests_le positive
  simp only [FollowerNode.Within, sending] at within
  obtain ⟨few, budget, unchanged, -⟩ := within
  unfold Server.retryAppending
  split_ifs with many
  · exact looping.finish positive inside bounded unchanged
  · exact looping.setNode positive inside (fun _ _ _ other => by cases other)
      ⟨by omega, by dsimp only; omega, unchanged⟩

theorem receiveAppendReply (looping : Looping target start node requests before)
    {msg : AppendEntriesMessage} {reply : Reply} {result : Server × List Output}
    (taken : before.step info (.receiveAppendReply target msg reply) = some result) :
    Looping target start node requests result.1 := by
  obtain ⟨current, known, positive, inside, covered, within⟩ := looping.cursors
  obtain ⟨found, oldMatchIdx, retryTimes, present, sending, rfl⟩ :=
    Server.step_receiveAppendReply.mp taken
  obtain rfl : current = found := Option.some.inj (known.symm.trans present)
  have bounded := within.requests_le positive
  have reached := covered oldMatchIdx retryTimes msg sending
  simp only [FollowerNode.Within, sending] at within
  obtain ⟨few, budget, unchanged, next⟩ := within
  rw [AppendEntriesMessage.reach, next] at reached
  unfold Server.receiveAppendReply
  split_ifs with accepted greater first
  · refine looping.setNode (by dsimp only; omega) (by dsimp only; omega)
      (fun _ _ _ other => by cases other) ⟨bounded, ?_⟩
    dsimp only
    omega
  · let raised : Server := { before with state.currentTerm := reply.1 }
    have kept : Looping target start node requests (raised.notify .follower reply.1) :=
      looping.extend (by simp [raised]) (by simp [raised]) (by simp [raised])
        ⟨0, by simp [raised]⟩
    exact kept.finish positive (by simpa [raised] using inside) bounded unchanged
  · exact looping.finish positive inside bounded unchanged
  · exact looping.setNode (by dsimp only; omega) (by dsimp only; omega)
      (fun _ _ _ other => by cases other) ⟨few, by dsimp only; omega, unchanged⟩

theorem interruptAppending (looping : Looping target start node requests before)
    {result : Server × List Output}
    (taken : before.step info (.interruptAppending target) = some result) :
    Looping target start node requests result.1 := by
  obtain ⟨current, known, positive, inside, -, within⟩ := looping.cursors
  obtain ⟨found, present, idle, rfl⟩ := Server.step_interruptAppending.mp taken
  obtain rfl : current = found := Option.some.inj (known.symm.trans present)
  have bounded := within.requests_le positive
  refine looping.finish positive inside bounded ?_
  cases thread : current.appendingThread with
  | counting idx => simp [thread, AppendingThread.isCounting] at idle
  | finished =>
      simp only [FollowerNode.Within, thread] at within
      exact within.2
  | trying oldMatchIdx retryTimes =>
      simp only [FollowerNode.Within, thread] at within
      exact within.2.2
  | sending oldMatchIdx retryTimes msg =>
      simp only [FollowerNode.Within, thread] at within
      exact within.2.2.1

theorem rpcAddLog (looping : Looping target start node requests before) {msg : AddLogMessage}
    {result : Server × List Output}
    (taken : before.step info (.rpcAddLog msg) = some result) :
    Looping target start node requests result.1 := by
  obtain ⟨-, rfl⟩ := Server.step_rpcAddLog.mp taken
  by_cases stores : before.identity = .leader ∧ ¬ Server.holdsOperation before.state msg
  · refine looping.extend ?_ ?_ ?_ ⟨0, ?_⟩
    all_goals simp [Server.rpcAddLog, stores.1, Server.addLog, stores.2, Server.pushEntry]
  · have same : (before.rpcAddLog info msg).1 = before := by
      unfold Server.rpcAddLog
      split
      · rw [Server.addLog, if_pos (by simpa [*] using stores)]
      · rfl
    rw [same]
    exact looping

theorem addLogState (looping : Looping target start node requests before)
    {result : Server × List Output} (taken : before.step info .addLogState = some result) :
    Looping target start node requests result.1 := by
  obtain ⟨msg, -, -, rfl⟩ := Server.step_addLogState.mp taken
  exact looping.extend rfl (Nat.le_refl _) rfl ⟨1, rfl⟩

/-- A step of the loop, or a command that is stored meanwhile. -/
theorem step (looping : Looping target start node requests before)
    {result : Server × List Output} (taken : before.step info event = some result)
    (inLoop : event.InLoop target) :
    Looping target start node (requests + if event.sends target then 1 else 0) result.1 := by
  cases event with
  | sendAppendEntries other =>
      obtain rfl : other = target := inLoop
      simpa [Event.sends] using looping.sendAppendEntries taken
  | failAppendEntries other =>
      obtain rfl : other = target := inLoop
      simpa [Event.sends] using looping.failAppendEntries taken
  | receiveAppendReply other msg reply =>
      obtain rfl : other = target := inLoop
      simpa [Event.sends] using looping.receiveAppendReply taken
  | interruptAppending other =>
      obtain rfl : other = target := inLoop
      simpa [Event.sends] using looping.interruptAppending taken
  | rpcAddLog msg => simpa [Event.sends] using looping.rpcAddLog taken
  | addLogState => simpa [Event.sends] using looping.addLogState taken
  | _ => exact inLoop.elim

/-- A run of the loop. -/
theorem run (looping : Looping target start node requests before) {events : List Event}
    (inLoop : ∀ event ∈ events, event.InLoop target) {final : Server}
    (execution : Execution.run (Server.move info) events before = some final) :
    Looping target start node (requests + events.countP (Event.sends target)) final := by
  induction events generalizing before requests with
  | nil =>
      obtain rfl : before = final := by simpa [Execution.run] using execution
      exact looping
  | cons event events ih =>
      simp only [Execution.run] at execution
      obtain ⟨after, moved, later⟩ := Option.bind_eq_some_iff.mp execution
      obtain ⟨sent, taken⟩ := Server.move_eq_some.mp moved
      have next := looping.step taken (inLoop event List.mem_cons_self)
      have rest := ih next (fun other member => inLoop other (List.mem_cons_of_mem event member))
        later
      rw [List.countP_cons]
      convert rest using 1
      omega

end Looping

/-! ## The loop -/

/-- An accepted request moves `matchIdx` to its last entry and `nextIdx` behind it; nothing else
moves `matchIdx`. -/
def MovesMatchIdx (target : ServerId) (before : Server) (event : Event) (after : Server) : Prop :=
  ∃ current changed, before.leader.followerNodes target = some current ∧
    after.leader.followerNodes target = some changed ∧
    (∀ msg term, event = .receiveAppendReply target msg (term, true) →
      changed.matchIdx = msg.prevLogIdx + msg.logEntries.length ∧
        changed.nextIdx = changed.matchIdx + 1) ∧
    ((∀ msg term, event ≠ .receiveAppendReply target msg (term, true)) →
      changed.matchIdx = current.matchIdx)

theorem Looping.movesMatchIdx (looping : Looping target start node requests before)
    {result : Server × List Output} (taken : before.step info event = some result)
    (inLoop : event.InLoop target) : MovesMatchIdx target before event result.1 := by
  obtain ⟨current, known, positive, -, -, within⟩ := looping.cursors
  have kept : ∀ changed, result.1.leader.followerNodes target = some changed →
      changed.matchIdx = current.matchIdx →
      (∀ msg term, event ≠ .receiveAppendReply target msg (term, true)) →
      MovesMatchIdx target before event result.1 := fun changed present same other =>
    ⟨current, changed, known, present, fun msg term accepted => absurd accepted (other msg term),
      fun _ => same⟩
  cases event with
  | sendAppendEntries other =>
      obtain rfl : other = target := inLoop
      obtain ⟨found, oldMatchIdx, retryTimes, msg, present, -, -, rfl⟩ :=
        Server.step_sendAppendEntries.mp taken
      obtain rfl : current = found := Option.some.inj (known.symm.trans present)
      exact kept _ (Server.setNode_known ..) rfl (by simp)
  | failAppendEntries other =>
      obtain rfl : other = target := inLoop
      obtain ⟨found, oldMatchIdx, retryTimes, msg, present, -, rfl⟩ :=
        Server.step_failAppendEntries.mp taken
      obtain rfl : current = found := Option.some.inj (known.symm.trans present)
      unfold Server.retryAppending at kept ⊢
      split_ifs at kept ⊢
      · exact kept _ (Server.setNode_known ..) rfl (by simp)
      · exact kept _ (Server.setNode_known ..) rfl (by simp)
  | interruptAppending other =>
      obtain rfl : other = target := inLoop
      obtain ⟨found, present, -, rfl⟩ := Server.step_interruptAppending.mp taken
      obtain rfl : current = found := Option.some.inj (known.symm.trans present)
      exact kept _ (Server.setNode_known ..) rfl (by simp)
  | receiveAppendReply other msg reply =>
      obtain rfl : other = target := inLoop
      obtain ⟨found, oldMatchIdx, retryTimes, present, sending, rfl⟩ :=
        Server.step_receiveAppendReply.mp taken
      obtain rfl : current = found := Option.some.inj (known.symm.trans present)
      simp only [FollowerNode.Within, sending] at within
      obtain ⟨-, -, -, next⟩ := within
      obtain ⟨term, success⟩ := reply
      cases success with
      | true =>
          refine ⟨current, _, known, Server.setNode_known .., ?_, ?_⟩
          · intro _ _ accepted
            obtain ⟨-, rfl, -⟩ := Event.receiveAppendReply.inj accepted
            dsimp only
            omega
          · exact fun other => absurd rfl (other msg term)
      | false =>
          unfold Server.receiveAppendReply at kept ⊢
          simp only [Bool.false_eq_true, if_false] at kept ⊢
          split_ifs at kept ⊢
          · exact kept _ (Server.setNode_known ..) rfl (by simp)
          · exact kept _ (Server.setNode_known ..) rfl (by simp)
          · exact kept _ (Server.setNode_known ..) rfl (by simp)
  | rpcAddLog msg =>
      obtain ⟨-, rfl⟩ := Server.step_rpcAddLog.mp taken
      refine kept current ?_ rfl (by simp)
      unfold Server.rpcAddLog Server.addLog
      split
      · split_ifs <;> simpa [Server.pushEntry] using known
      · exact known
  | addLogState =>
      obtain ⟨msg, -, -, rfl⟩ := Server.step_addLogState.mp taken
      exact kept current known rfl (by simp)
  | _ => exact inLoop.elim

/-- The loop for one follower, which started with the cursors of `node` and has sent `requests`
requests. -/
structure EndsSoundly (info : ServerInfo) (target : ServerId) (start : Server)
    (node : FollowerNode) (requests : Nat) (final : Server) : Prop where
  /-- The requests are few. -/
  bounded : requests ≤ node.nextIdx + 2
  /-- `nextIdx` stays inside the log. -/
  cursors : ∃ current, final.leader.followerNodes target = some current ∧
    1 ≤ current.nextIdx ∧ current.nextIdx ≤ final.state.entries.length
  /-- At its head the loop has not used up its requests, and can send the next one. -/
  goesOn : ∀ current oldMatchIdx retryTimes, final.leader.followerNodes target = some current →
    current.appendingThread = .trying oldMatchIdx retryTimes →
      requests < node.nextIdx + 2 ∧ (final.step info (.sendAppendEntries target)).isSome
  /-- Every outcome of a request is processed. -/
  answered : ∀ current oldMatchIdx retryTimes msg,
    final.leader.followerNodes target = some current →
    current.appendingThread = .sending oldMatchIdx retryTimes msg →
      (final.step info (.failAppendEntries target)).isSome ∧
        ∀ reply, (final.step info (.receiveAppendReply target msg reply)).isSome
  /-- A loop that cannot go on is over: the thread has returned or counts. -/
  maximal : (∀ event : Event, event.Proceeds target → final.step info event = none) →
    ∃ current, final.leader.followerNodes target = some current ∧
      (current.appendingThread = .finished ∨ current.appendingThread.isCounting = true)
  /-- When the thread has returned without having been accepted, `matchIdx` is as before. -/
  matchIdx : ∀ current, final.leader.followerNodes target = some current →
    current.appendingThread = .finished → current.matchIdx = node.matchIdx
  /-- The commit index is as before. -/
  commitIdx : final.state.commitIdx = start.state.commitIdx
  /-- So are the counters, apart from those of new commands. -/
  logStates : ∃ added,
    final.leader.logStates = start.leader.logStates ++ List.replicate added 1

/-- At the head of the loop the next request can be sent. -/
theorem isSome_step_sendAppendEntries {oldMatchIdx retryTimes : Nat}
    (known : after.leader.followerNodes target = some current)
    (trying : current.appendingThread = .trying oldMatchIdx retryTimes)
    (positive : 1 ≤ current.nextIdx) (inside : current.nextIdx ≤ after.state.entries.length) :
    (after.step info (.sendAppendEntries target)).isSome := by
  have present : current.nextIdx - 1 < after.state.entries.length := by omega
  simp [Server.step, known, trying, Server.createAppendEntriesMessage, termAt, present]

theorem Looping.endsSoundly (looping : Looping target start node requests after) :
    EndsSoundly info target start node requests after := by
  obtain ⟨current, known, positive, inside, -, within⟩ := looping.cursors
  have same : ∀ {found}, after.leader.followerNodes target = some found → current = found :=
    fun present => Option.some.inj (known.symm.trans present)
  refine
    { bounded := within.requests_le positive
      cursors := ⟨current, known, positive, inside⟩
      goesOn := fun found oldMatchIdx retryTimes present trying => ?_
      answered := fun found oldMatchIdx retryTimes msg present sending => ?_
      maximal := fun stuck => ⟨current, known, ?_⟩
      matchIdx := fun found present finished => ?_
      commitIdx := looping.commitIdx
      logStates := looping.logStates }
  · obtain rfl := same present
    simp only [FollowerNode.Within, trying] at within
    exact ⟨by omega, isSome_step_sendAppendEntries known trying positive inside⟩
  · obtain rfl := same present
    simp [Server.step, known, sending]
  · cases thread : current.appendingThread with
    | finished => exact .inl rfl
    | counting idx => exact .inr rfl
    | trying oldMatchIdx retryTimes =>
        have sends : (after.step info (.sendAppendEntries target)).isSome :=
          isSome_step_sendAppendEntries known thread positive inside
        simp [stuck (.sendAppendEntries target) rfl] at sends
    | sending oldMatchIdx retryTimes msg =>
        have fails : (after.step info (.failAppendEntries target)).isSome := by
          simp [Server.step, known, thread]
        simp [stuck (.failAppendEntries target) rfl] at fails
  · obtain rfl := same present
    simp only [FollowerNode.Within, finished] at within
    exact within.2

/-- Whatever the outcomes of its requests and whatever commands are stored meanwhile, the loop ends
after at most `nextIdx + 2` requests and keeps its cursors; where neither a request nor an outcome
is left, it has ended. -/
theorem tryAppendEntries_endsSoundly {begun : Server} {sent : List Output}
    (started : start.step info (.startAppending target) = some (begun, sent))
    (known : start.leader.followerNodes target = some node) (positive : 1 ≤ node.nextIdx)
    (inside : node.nextIdx ≤ start.state.entries.length) {events : List Event}
    (inLoop : ∀ event ∈ events, event.InLoop target) :
    Execution.Along (Server.move info) (MovesMatchIdx target) events begun ∧
      ∀ final ∈ Execution.run (Server.move info) events begun,
        EndsSoundly info target start node (events.countP (Event.sends target)) final := by
  obtain ⟨found, present, -, same⟩ := Server.step_startAppending.mp started
  obtain rfl : node = found := Option.some.inj (known.symm.trans present)
  obtain ⟨rfl, -⟩ := Prod.mk.inj same
  have looping : Looping target start node 0 (start.startAppending target node) :=
    Looping.startAppending positive inside
  constructor
  · refine Execution.along_of_invariant
      (fun before event after (kept : ∃ requests, Looping target start node requests before) moved
        inLoop => ?_) ⟨0, looping⟩ (Execution.along_of_labels inLoop _)
    obtain ⟨requests, looping⟩ := kept
    obtain ⟨sent, taken⟩ := Server.move_eq_some.mp moved
    exact ⟨⟨_, looping.step taken inLoop⟩, looping.movesMatchIdx taken inLoop⟩
  · intro final execution
    have reached := looping.run inLoop execution
    rw [Nat.zero_add] at reached
    exact reached.endsSoundly

/-- A leader of term 1 with a command, which has not heard of its follower. -/
def leadingFirst : Server :=
  { state := { currentTerm := 1, entries := [{}, { term := 1 }] }
    identity := .leader
    leader := { followerNodes := fun _ => some {}, logStates := [1, 1] } }

/-- Its first request fails, a command arrives, and the second request is accepted. -/
def retriedOnce : List Event :=
  [.sendAppendEntries (localServer 2), .failAppendEntries (localServer 2),
    .rpcAddLog { opName := "op", srvId := localServer 1 },
    .sendAppendEntries (localServer 2),
    .receiveAppendReply (localServer 2)
      { term := 1
        leaderId := localServer 1
        logEntries := [{ term := 1 }, { term := 1, opName := "op", srvId := localServer 1 }] }
      (1, true)]

theorem tryAppendEntries_endsSoundly_retried :
    Execution.Along (Server.move (trio.info (localServer 1))) (MovesMatchIdx (localServer 2))
        retriedOnce (leadingFirst.startAppending (localServer 2) {}) ∧
      ∀ final ∈ Execution.run (Server.move (trio.info (localServer 1))) retriedOnce
          (leadingFirst.startAppending (localServer 2) {}),
        EndsSoundly (trio.info (localServer 1)) (localServer 2) leadingFirst {}
          (retriedOnce.countP (Event.sends (localServer 2))) final :=
  tryAppendEntries_endsSoundly (Server.step_startAppending.mpr ⟨{}, rfl, rfl, rfl⟩) rfl (by decide)
    (by decide) (by
      intro event member
      simp only [retriedOnce, List.mem_cons, List.not_mem_nil, or_false] at member
      rcases member with rfl | rfl | rfl | rfl | rfl <;> simp [Event.InLoop])

end Quintet
