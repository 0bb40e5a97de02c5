import Mathlib.Tactic.Push
import QuintetRaft.Model.Raft

/-!
# What a step can do

Inversion of `Server.step`, one lemma for each event, and the shape of the two RPC handlers.
Later arguments use these instead of unfolding the step function.
-/

namespace Quintet

namespace Server

variable {info : ServerInfo} {srv : Server} {result : Server × List Output}

/-- The identities whose RPC handlers are the default ones. -/
def Serving (srv : Server) : Prop :=
  srv.identity = .follower ∨ srv.identity = .candidate ∨ srv.identity = .leader

instance (srv : Server) : Decidable srv.Serving :=
  inferInstanceAs (Decidable (_ ∨ _))

/-! ## The RPC handlers -/

theorem rpcRequestVote_of_serving (serving : srv.Serving) (msg : RequestVoteMessage) :
    srv.rpcRequestVote msg = deferApply (srv.requestVoteBody msg srv.identity) := by
  rcases serving with role | role | role <;>
    simp [rpcRequestVote, role, followerRequestVote, candidateRequestVote, leaderRequestVote,
      defaultRPCRequestVote]

/-- A request for votes is always answered in its own term. -/
theorem rpcRequestVote_reply (serving : srv.Serving) (msg : RequestVoteMessage) :
    (srv.rpcRequestVote msg).2.1 = (msg.term, decide (srv.state.grants msg)) := by
  rw [rpcRequestVote_of_serving serving, deferApply, requestVoteBody_eq]

theorem rpcRequestVote_of_not_serving (idle : ¬ srv.Serving) (msg : RequestVoteMessage) :
    srv.rpcRequestVote msg = (srv, (0, false), []) := by
  unfold rpcRequestVote
  split <;> simp_all [Serving, invalidTerm]

/-- A request for votes reaches the default handler, or changes nothing. -/
theorem rpcRequestVote_cases (srv : Server) (msg : RequestVoteMessage) :
    srv.Serving ∧ srv.rpcRequestVote msg = deferApply (srv.requestVoteBody msg srv.identity) ∨
      ¬ srv.Serving ∧ srv.rpcRequestVote msg = (srv, (0, false), []) := by
  by_cases serving : srv.Serving
  · exact .inl ⟨serving, rpcRequestVote_of_serving serving msg⟩
  · exact .inr ⟨serving, rpcRequestVote_of_not_serving serving msg⟩

/-- The server as `defaultRPCAppendEntries` finds it: a candidate has already asked to step down
for a message of its own term. -/
def beforeAppend (msg : AppendEntriesMessage) (srv : Server) : Server :=
  if srv.identity = .candidate ∧ msg.term = srv.state.currentTerm then
    srv.notify .follower srv.state.currentTerm
  else
    srv

theorem rpcAppendEntries_of_follower_stale (role : srv.identity = .follower)
    {msg : AppendEntriesMessage} (stale : msg.term < srv.state.currentTerm) :
    srv.rpcAppendEntries msg = (srv, (srv.state.currentTerm, false), []) := by
  simp [rpcAppendEntries, role, followerAppendEntries, stale]

theorem rpcAppendEntries_of_serving (serving : srv.Serving) {msg : AppendEntriesMessage}
    (passes : srv.identity = .follower → srv.state.currentTerm ≤ msg.term) :
    srv.rpcAppendEntries msg =
      deferApply ((srv.beforeAppend msg).appendEntriesBody msg srv.identity) := by
  rcases serving with role | role | role
  · simp [rpcAppendEntries, role, followerAppendEntries, beforeAppend, defaultRPCAppendEntries,
      Nat.not_lt.mpr (passes role)]
  · simp [rpcAppendEntries, role, candidateAppendEntries, beforeAppend, defaultRPCAppendEntries]
  · simp [rpcAppendEntries, role, leaderAppendEntries, beforeAppend, defaultRPCAppendEntries]

theorem rpcAppendEntries_of_not_serving (idle : ¬ srv.Serving) (msg : AppendEntriesMessage) :
    srv.rpcAppendEntries msg = (srv, (0, false), []) := by
  unfold rpcAppendEntries
  split <;> simp_all [Serving, invalidTerm]

/-- An append request reaches the default handler, or is refused and changes nothing. -/
theorem rpcAppendEntries_cases (srv : Server) (msg : AppendEntriesMessage) :
    srv.Serving ∧ (srv.identity = .follower → srv.state.currentTerm ≤ msg.term) ∧
        srv.rpcAppendEntries msg =
          deferApply ((srv.beforeAppend msg).appendEntriesBody msg srv.identity) ∨
      ¬ (srv.Serving ∧ (srv.identity = .follower → srv.state.currentTerm ≤ msg.term)) ∧
        ∃ term, srv.rpcAppendEntries msg = (srv, (term, false), []) := by
  by_cases serving : srv.Serving
  · by_cases passes : srv.identity = .follower → srv.state.currentTerm ≤ msg.term
    · exact .inl ⟨serving, passes, rpcAppendEntries_of_serving serving passes⟩
    · refine .inr ⟨fun both => passes both.2, srv.state.currentTerm, ?_⟩
      push Not at passes
      exact rpcAppendEntries_of_follower_stale passes.1 passes.2
  · exact .inr ⟨fun both => serving both.1, 0, rpcAppendEntries_of_not_serving serving msg⟩

@[simp] theorem beforeAppend_state (msg : AppendEntriesMessage) :
    (srv.beforeAppend msg).state = srv.state := by
  unfold beforeAppend; split_ifs <;> simp

@[simp] theorem beforeAppend_identity (msg : AppendEntriesMessage) :
    (srv.beforeAppend msg).identity = srv.identity := by
  unfold beforeAppend; split_ifs <;> simp

@[simp] theorem beforeAppend_candidate (msg : AppendEntriesMessage) :
    (srv.beforeAppend msg).candidate = srv.candidate := by
  unfold beforeAppend; split_ifs <;> simp

@[simp] theorem beforeAppend_leader (msg : AppendEntriesMessage) :
    (srv.beforeAppend msg).leader = srv.leader := by
  unfold beforeAppend; split_ifs <;> simp

/-! ## Inversion of the step function -/

theorem step_rpcRequestVote {msg : RequestVoteMessage} :
    step info srv (.rpcRequestVote msg) = some result ↔
      srv.leader.addingLog = none ∧
        result = ((srv.rpcRequestVote msg).1,
          (srv.rpcRequestVote msg).2.2 ++ [.voteReply msg (srv.rpcRequestVote msg).2.1]) := by
  simp [step, eq_comm]

theorem step_rpcAppendEntries {msg : AppendEntriesMessage} :
    step info srv (.rpcAppendEntries msg) = some result ↔
      srv.leader.addingLog = none ∧
        result = ((srv.rpcAppendEntries msg).1,
          (srv.rpcAppendEntries msg).2.2 ++ [.appendReply msg (srv.rpcAppendEntries msg).2.1]) := by
  simp [step, eq_comm]

theorem step_rpcAddLog {msg : AddLogMessage} :
    step info srv (.rpcAddLog msg) = some result ↔
      srv.leader.addingLog = none ∧ result = srv.rpcAddLog info msg := by
  simp [step, eq_comm]

theorem step_addLogState :
    step info srv .addLogState = some result ↔
      ∃ msg, srv.leader.addingLog = some msg ∧ srv.noneCounting info ∧
        result = srv.addLogState info msg := by
  cases adding : srv.leader.addingLog <;> simp [step, adding, eq_comm]

theorem step_timeout :
    step info srv .timeout = some result ↔
      (srv.identity = .follower ∨ srv.identity = .candidate) ∧
        result = (srv.notify .candidate srv.state.currentTerm, []) := by
  simp [step, eq_comm]

theorem step_transform :
    step info srv .transform = some result ↔
      ∃ target term rest, srv.events = (target, term) :: rest ∧
        (srv.identity = .leader → srv.noneCounting info) ∧
        result = { srv with events := rest }.transform info target := by
  cases queue : srv.events with
  | nil => simp [step, queue]
  | cons head rest =>
      obtain ⟨target, term⟩ := head
      simp only [step, queue, Option.ite_none_right_eq_some, Option.some.injEq, List.cons.injEq,
        Prod.mk.injEq]
      constructor
      · rintro ⟨joined, rfl⟩
        exact ⟨target, term, rest, ⟨⟨rfl, rfl⟩, rfl⟩, joined, rfl⟩
      · rintro ⟨_, _, _, ⟨⟨rfl, rfl⟩, rfl⟩, joined, rfl⟩
        exact ⟨joined, rfl⟩

theorem step_receiveVote {target : ServerId} {msg : RequestVoteMessage} {reply : Reply} :
    step info srv (.receiveVote target msg reply) = some result ↔
      (target, msg) ∈ srv.candidate.requests ∧
        result = (srv.receiveVote info target msg reply, []) := by
  simp [step, eq_comm]

theorem step_startAppending {target : ServerId} :
    step info srv (.startAppending target) = some result ↔
      ∃ node, srv.leader.followerNodes target = some node ∧
        node.appendingThread = .finished ∧ result = (srv.startAppending target node, []) := by
  cases known : srv.leader.followerNodes target <;> simp [step, known, eq_comm]

theorem step_interruptAppending {target : ServerId} :
    step info srv (.interruptAppending target) = some result ↔
      ∃ node, srv.leader.followerNodes target = some node ∧
        node.appendingThread.isCounting = false ∧
        result = (srv.finishAppending target node, []) := by
  cases known : srv.leader.followerNodes target with
  | none => simp [step, known]
  | some node =>
      cases counting : node.appendingThread.isCounting <;>
        simp [step, known, counting, eq_comm (b := result)]

theorem step_sendAppendEntries {target : ServerId} :
    step info srv (.sendAppendEntries target) = some result ↔
      ∃ node oldMatchIdx retryTimes msg, srv.leader.followerNodes target = some node ∧
        node.appendingThread = .trying oldMatchIdx retryTimes ∧
        srv.createAppendEntriesMessage info node.nextIdx = some msg ∧
        result =
          (srv.setNode target
            { node with appendingThread := .sending oldMatchIdx retryTimes msg },
            [.appendEntries target msg]) := by
  cases known : srv.leader.followerNodes target with
  | none => simp [step, known]
  | some node =>
      cases thread : node.appendingThread <;>
        simp [step, known, thread, Option.map_eq_some_iff, eq_comm (b := result)]

theorem step_failAppendEntries {target : ServerId} :
    step info srv (.failAppendEntries target) = some result ↔
      ∃ node oldMatchIdx retryTimes msg, srv.leader.followerNodes target = some node ∧
        node.appendingThread = .sending oldMatchIdx retryTimes msg ∧
        result = (srv.retryAppending target node oldMatchIdx retryTimes, []) := by
  cases known : srv.leader.followerNodes target with
  | none => simp [step, known]
  | some node => cases thread : node.appendingThread <;> simp [step, known, thread, eq_comm]

theorem step_receiveAppendReply {target : ServerId} {msg : AppendEntriesMessage} {reply : Reply} :
    step info srv (.receiveAppendReply target msg reply) = some result ↔
      ∃ node oldMatchIdx retryTimes, srv.leader.followerNodes target = some node ∧
        node.appendingThread = .sending oldMatchIdx retryTimes msg ∧
        result =
          (srv.receiveAppendReply target node oldMatchIdx retryTimes msg reply, []) := by
  cases known : srv.leader.followerNodes target with
  | none => simp [step, known]
  | some node => cases thread : node.appendingThread <;> simp [step, known, thread, eq_comm]

theorem step_countReplica {target : ServerId} :
    step info srv (.countReplica target) = some result ↔
      ∃ node idx, srv.leader.followerNodes target = some node ∧
        node.appendingThread = .counting idx ∧
        result = srv.countReplica info target node idx := by
  cases known : srv.leader.followerNodes target with
  | none => simp [step, known]
  | some node => cases thread : node.appendingThread <;> simp [step, known, thread, eq_comm]

/-! ## Terms, votes and logs -/

/-- The target of the transformation the event queue executes next. -/
def nextTarget (srv : Server) : Option ServerIdentityNo :=
  srv.events.head?.map Prod.fst

/-- The term of a server after an event. -/
def termAfter (srv : Server) : Event → Nat
  | .rpcRequestVote msg => if srv.Serving then msg.term else srv.state.currentTerm
  | .rpcAppendEntries msg =>
      if srv.identity = .candidate ∨ srv.identity = .leader then
        min srv.state.currentTerm msg.term
      else srv.state.currentTerm
  | .transform =>
      if srv.nextTarget = some .candidate then incrementTerm srv.state.currentTerm
      else srv.state.currentTerm
  | .receiveAppendReply _ _ reply =>
      if reply.2 then srv.state.currentTerm else max srv.state.currentTerm reply.1
  | _ => srv.state.currentTerm

/-- The recorded vote of a server after an event. -/
def votedForAfter (info : ServerInfo) (srv : Server) : Event → ServerId
  | .rpcRequestVote msg =>
      if srv.Serving ∧ srv.state.grants msg then msg.candidateId else srv.state.votedFor
  | .transform =>
      if srv.nextTarget = some .candidate then info.localId else srv.state.votedFor
  | _ => srv.state.votedFor

/-- An append request passes the log test of `defaultRPCAppendEntries`. -/
def Accepts (srv : Server) (msg : AppendEntriesMessage) : Prop :=
  srv.Serving ∧ (srv.identity = .follower → srv.state.currentTerm ≤ msg.term) ∧
    termAt srv.state.entries msg.prevLogIdx = some msg.prevLogTerm

instance (srv : Server) (msg : AppendEntriesMessage) : Decidable (srv.Accepts msg) :=
  inferInstanceAs (Decidable (_ ∧ _))

/-- An append request is accepted exactly when it passes the log test. -/
theorem rpcAppendEntries_reply (msg : AppendEntriesMessage) :
    (srv.rpcAppendEntries msg).2.1.2 = decide (srv.Accepts msg) := by
  rcases rpcAppendEntries_cases srv msg with ⟨serving, passes, runs⟩ | ⟨refused, term, rests⟩
  · rw [runs, deferApply, appendEntriesBody_eq]
    by_cases matched : termAt srv.state.entries msg.prevLogIdx = some msg.prevLogTerm
    · have accepted : srv.Accepts msg := ⟨serving, passes, matched⟩
      simp [matched, accepted]
    · simp [matched, Accepts]
  · have refuses : ¬ srv.Accepts msg := fun accepted => refused ⟨accepted.1, accepted.2.1⟩
    simp [rests, refuses]

/-- The log of a server after an event. -/
def entriesAfter (srv : Server) : Event → List LogEntry
  | .rpcAppendEntries msg =>
      if srv.Accepts msg then (srv.state.replicate msg).entries else srv.state.entries
  | .rpcAddLog msg =>
      if srv.identity = .leader ∧ ¬ holdsOperation srv.state msg then
        srv.state.entries ++ [logEntry msg srv.state.currentTerm]
      else srv.state.entries
  | _ => srv.state.entries

/-- Events that leave the shared state alone. -/
theorem step_state_of_quiet {event : Event} (taken : step info srv event = some result)
    (quiet : match event with
      | .addLogState | .timeout | .receiveVote .. | .startAppending _ | .interruptAppending _
      | .sendAppendEntries _ | .failAppendEntries _ => True
      | _ => False) : result.1.state = srv.state := by
  cases event with
  | addLogState =>
      obtain ⟨_, -, -, rfl⟩ := step_addLogState.mp taken
      rfl
  | timeout =>
      obtain ⟨-, rfl⟩ := step_timeout.mp taken
      simp
  | receiveVote target msg reply =>
      obtain ⟨-, rfl⟩ := step_receiveVote.mp taken
      simp only [receiveVote]
      split_ifs <;> simp
  | startAppending target =>
      obtain ⟨_, -, -, rfl⟩ := step_startAppending.mp taken
      rfl
  | interruptAppending target =>
      obtain ⟨_, -, -, rfl⟩ := step_interruptAppending.mp taken
      rfl
  | sendAppendEntries target =>
      obtain ⟨_, _, _, _, -, -, -, rfl⟩ := step_sendAppendEntries.mp taken
      rfl
  | failAppendEntries target =>
      obtain ⟨_, _, _, _, -, -, rfl⟩ := step_failAppendEntries.mp taken
      simp only [retryAppending]
      split_ifs <;> rfl
  | rpcRequestVote | rpcAppendEntries | rpcAddLog | transform | receiveAppendReply
  | countReplica => exact quiet.elim

/-- What a request for votes does to the shared state. -/
theorem rpcRequestVote_state (serving : srv.Serving) (msg : RequestVoteMessage) :
    (srv.rpcRequestVote msg).1.state =
      { srv.state with
        currentTerm := msg.term
        votedFor := if srv.state.grants msg then msg.candidateId else srv.state.votedFor
        lastApplied := max srv.state.lastApplied srv.state.commitIdx } := by
  simp [rpcRequestVote_of_serving serving, requestVoteBody_eq, deferApply]

/-- What an append request does to the term, the vote and the log. -/
theorem rpcAppendEntries_state (msg : AppendEntriesMessage) :
    (srv.rpcAppendEntries msg).1.state.currentTerm = srv.termAfter (.rpcAppendEntries msg) ∧
      (srv.rpcAppendEntries msg).1.state.votedFor = srv.state.votedFor ∧
      (srv.rpcAppendEntries msg).1.state.entries = srv.entriesAfter (.rpcAppendEntries msg) := by
  by_cases serving : srv.Serving
  · by_cases passes : srv.identity = .follower → srv.state.currentTerm ≤ msg.term
    · have lowered :
          min srv.state.currentTerm msg.term = srv.termAfter (.rpcAppendEntries msg) := by
        rcases serving with role | role | role <;> simp_all [termAfter]
      rw [rpcAppendEntries_of_serving serving passes, deferApply, appendEntriesBody_eq]
      by_cases matched : termAt srv.state.entries msg.prevLogIdx = some msg.prevLogTerm
      · have accepted : srv.Accepts msg := ⟨serving, passes, matched⟩
        simp [matched, lowered, entriesAfter, accepted]
      · simp [matched, lowered, entriesAfter, Accepts]
    · push Not at passes
      rw [rpcAppendEntries_of_follower_stale passes.1 passes.2]
      simp [termAfter, entriesAfter, Accepts, passes.1, passes.2]
  · rw [rpcAppendEntries_of_not_serving serving]
    refine ⟨?_, rfl, ?_⟩
    · simp only [Serving, not_or] at serving
      simp [termAfter, serving]
    · simp [entriesAfter, Accepts, serving]

/-- What a transformation does to the shared state. -/
theorem transform_state {target : ServerIdentityNo} :
    (srv.transform info target).1.state =
      if target = .candidate then
        { srv.state with
          currentTerm := incrementTerm srv.state.currentTerm
          votedFor := info.localId }
      else srv.state := by
  have left : srv.leave.state = srv.state := by
    unfold leave; split <;> rfl
  cases target <;> simp [transform, enter, candidateInit, campaign, leaderInit, left]
  split_ifs <;> simp

theorem countReplica_state {target : ServerId} {node : FollowerNode} {idx : Nat} :
    (srv.countReplica info target node idx).1.state.currentTerm = srv.state.currentTerm ∧
      (srv.countReplica info target node idx).1.state.votedFor = srv.state.votedFor ∧
      (srv.countReplica info target node idx).1.state.entries = srv.state.entries := by
  unfold countReplica
  split
  · dsimp only
    split_ifs <;> exact ⟨rfl, rfl, rfl⟩
  · simp [finishAppending]

theorem receiveAppendReply_state {target : ServerId} {node : FollowerNode}
    {oldMatchIdx retryTimes : Nat} {msg : AppendEntriesMessage} {reply : Reply} :
    (srv.receiveAppendReply target node oldMatchIdx retryTimes msg reply).state =
      { srv.state with
        currentTerm := if reply.2 then srv.state.currentTerm
          else max srv.state.currentTerm reply.1 } := by
  unfold receiveAppendReply
  split_ifs with success greater
  · rfl
  · simp [finishAppending, Nat.max_eq_right greater.le]
  · simp [finishAppending, Nat.max_eq_left (Nat.le_of_not_lt greater)]
  · simp [Nat.max_eq_left (Nat.le_of_not_lt greater)]

theorem rpcAddLog_state {msg : AddLogMessage} :
    (srv.rpcAddLog info msg).1.state.currentTerm = srv.state.currentTerm ∧
      (srv.rpcAddLog info msg).1.state.votedFor = srv.state.votedFor ∧
      (srv.rpcAddLog info msg).1.state.entries = srv.entriesAfter (.rpcAddLog msg) := by
  by_cases role : srv.identity = .leader
  · by_cases held : holdsOperation srv.state msg <;>
      simp [rpcAddLog, role, addLog, held, entriesAfter, pushEntry]
  · have refused : srv.rpcAddLog info msg = (srv, [.addLogReply msg defaultAddLog]) := by
      unfold rpcAddLog; split <;> simp_all
    simp [refused, entriesAfter, role]

variable {event : Event}

theorem step_currentTerm (taken : step info srv event = some result) :
    result.1.state.currentTerm = srv.termAfter event := by
  cases event with
  | rpcRequestVote msg =>
      obtain ⟨-, rfl⟩ := step_rpcRequestVote.mp taken
      by_cases serving : srv.Serving
      · simp [rpcRequestVote_state serving, termAfter, serving]
      · simp [rpcRequestVote_of_not_serving serving, termAfter, serving]
  | rpcAppendEntries msg =>
      obtain ⟨-, rfl⟩ := step_rpcAppendEntries.mp taken
      exact (rpcAppendEntries_state msg).1
  | rpcAddLog msg =>
      obtain ⟨-, rfl⟩ := step_rpcAddLog.mp taken
      exact rpcAddLog_state.1
  | transform =>
      obtain ⟨target, term, rest, queue, -, rfl⟩ := step_transform.mp taken
      simp only [transform_state, termAfter, nextTarget, queue]
      by_cases stands : target = .candidate <;> simp [stands]
  | receiveAppendReply target msg reply =>
      obtain ⟨_, _, _, -, -, rfl⟩ := step_receiveAppendReply.mp taken
      simp [receiveAppendReply_state, termAfter]
  | countReplica target =>
      obtain ⟨_, _, -, -, rfl⟩ := step_countReplica.mp taken
      exact countReplica_state.1
  | _ => rw [step_state_of_quiet taken trivial]; rfl

theorem step_votedFor (taken : step info srv event = some result) :
    result.1.state.votedFor = srv.votedForAfter info event := by
  cases event with
  | rpcRequestVote msg =>
      obtain ⟨-, rfl⟩ := step_rpcRequestVote.mp taken
      by_cases serving : srv.Serving
      · simp [rpcRequestVote_state serving, votedForAfter, serving]
      · simp [rpcRequestVote_of_not_serving serving, votedForAfter, serving]
  | rpcAppendEntries msg =>
      obtain ⟨-, rfl⟩ := step_rpcAppendEntries.mp taken
      exact (rpcAppendEntries_state msg).2.1
  | rpcAddLog msg =>
      obtain ⟨-, rfl⟩ := step_rpcAddLog.mp taken
      exact rpcAddLog_state.2.1
  | transform =>
      obtain ⟨target, term, rest, queue, -, rfl⟩ := step_transform.mp taken
      simp only [transform_state, votedForAfter, nextTarget, queue]
      by_cases stands : target = .candidate <;> simp [stands]
  | receiveAppendReply target msg reply =>
      obtain ⟨_, _, _, -, -, rfl⟩ := step_receiveAppendReply.mp taken
      simp [receiveAppendReply_state, votedForAfter]
  | countReplica target =>
      obtain ⟨_, _, -, -, rfl⟩ := step_countReplica.mp taken
      exact countReplica_state.2.1
  | _ => rw [step_state_of_quiet taken trivial]; rfl

theorem step_entries (taken : step info srv event = some result) :
    result.1.state.entries = srv.entriesAfter event := by
  cases event with
  | rpcRequestVote msg =>
      obtain ⟨-, rfl⟩ := step_rpcRequestVote.mp taken
      by_cases serving : srv.Serving
      · simp [rpcRequestVote_state serving, entriesAfter]
      · simp [rpcRequestVote_of_not_serving serving, entriesAfter]
  | rpcAppendEntries msg =>
      obtain ⟨-, rfl⟩ := step_rpcAppendEntries.mp taken
      exact (rpcAppendEntries_state msg).2.2
  | rpcAddLog msg =>
      obtain ⟨-, rfl⟩ := step_rpcAddLog.mp taken
      exact rpcAddLog_state.2.2
  | transform =>
      obtain ⟨target, term, rest, queue, -, rfl⟩ := step_transform.mp taken
      by_cases stands : target = .candidate <;> simp [transform_state, stands, entriesAfter]
  | receiveAppendReply target msg reply =>
      obtain ⟨_, _, _, -, -, rfl⟩ := step_receiveAppendReply.mp taken
      simp [receiveAppendReply_state, entriesAfter]
  | countReplica target =>
      obtain ⟨_, _, -, -, rfl⟩ := step_countReplica.mp taken
      exact countReplica_state.2.2
  | _ => rw [step_state_of_quiet taken trivial]; rfl

end Server

end Quintet
