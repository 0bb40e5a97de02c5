import QuintetRaft.Library.Execution
import QuintetRaft.Model.Threads

/-!
# Requests for transformations

What the threads of a server pass to `IdentityTransformer::notify`, and what this adds to the event
queue.
-/

namespace Quintet

/-- The identities that `notify` asks for. -/
def ServerIdentityNo.Regular (target : ServerIdentityNo) : Prop :=
  target = .follower ∨ target = .candidate ∨ target = .leader

/-- Anything but a handler that calls `notify`, the election timeout and a transformation. -/
def Event.Aside : Event → Prop
  | .rpcRequestVote _ | .rpcAppendEntries _ | .timeout | .transform => False
  | _ => True

namespace Server

variable {info : ServerInfo} {srv : Server} {event : Event} {result : Server × List Output}

/-- What a thread that an identity has started passes to `notify`. -/
def notice (info : ServerInfo) (srv : Server) : Event → Option (ServerIdentityNo × Nat)
  | .receiveVote _ msg reply =>
      if reply = (msg.term, true) ∧ info.exceedsHalf (srv.candidate.votesReceived + 1) then
        some (.leader, msg.term)
      else none
  | .receiveAppendReply _ _ reply =>
      if reply.2 = false ∧ srv.state.currentTerm < reply.1 then some (.follower, reply.1)
      else none
  | _ => none

/-- What `init` of a new identity passes to `notify`. -/
def initNotice (info : ServerInfo) (srv : Server) (target : ServerIdentityNo) :
    Option (ServerIdentityNo × Nat) :=
  if target = .candidate ∧ info.exceedsHalf 1 then
    some (.leader, incrementTerm srv.state.currentTerm)
  else none

/-- What a call of `notify` adds to the queue. -/
def passed (srv : Server) (notice : Option (ServerIdentityNo × Nat)) :
    List (ServerIdentityNo × Nat) :=
  (notice.filter fun request => srv.accepts request.2).toList

@[simp] theorem passed_none : srv.passed none = [] := rfl

theorem passed_some (target : ServerIdentityNo) (term : Nat) :
    srv.passed (some (target, term)) = if srv.accepts term then [(target, term)] else [] := by
  by_cases opens : srv.accepts term <;> simp [passed, opens]

/-- The queue grows exactly when the gate is open for the request. -/
theorem passed_ne_nil {notice : Option (ServerIdentityNo × Nat)} :
    srv.passed notice ≠ [] ↔ ∃ request ∈ notice, srv.accepts request.2 := by
  rcases notice with _ | ⟨target, term⟩
  · simp
  · rw [passed_some]
    by_cases opens : srv.accepts term <;> simp [opens]

theorem mem_of_passed {notice : Option (ServerIdentityNo × Nat)}
    {request : ServerIdentityNo × Nat} (member : request ∈ srv.passed notice) :
    notice = some request :=
  Option.mem_def.mp (Option.mem_filter_iff.mp (Option.mem_toList.mp member)).1

theorem notify_events_eq (target : ServerIdentityNo) (term : Nat) :
    (srv.notify target term).events = srv.events ++ srv.passed (some (target, term)) := by
  rw [notify_events, passed_some]
  split_ifs <;> simp

theorem notice_regular {request : ServerIdentityNo × Nat}
    (asks : srv.notice info event = some request) : request.1.Regular := by
  unfold notice at asks
  split at asks
  · obtain ⟨-, rfl⟩ := Execution.guarded_eq_some.mp asks
    exact .inr (.inr rfl)
  · obtain ⟨-, rfl⟩ := Execution.guarded_eq_some.mp asks
    exact .inl rfl
  · cases asks

theorem initNotice_regular {target : ServerIdentityNo} {request : ServerIdentityNo × Nat}
    (asks : srv.initNotice info target = some request) : request.1.Regular := by
  obtain ⟨-, rfl⟩ := Execution.guarded_eq_some.mp asks
  exact .inr (.inr rfl)

/-! ## The queue after a step -/

theorem receiveVote_events {target : ServerId} {msg : RequestVoteMessage} {reply : Reply} :
    (srv.receiveVote info target msg reply).events =
      srv.events ++ srv.passed (srv.notice info (.receiveVote target msg reply)) := by
  obtain ⟨term, granted⟩ := reply
  by_cases counts : term = msg.term ∧ granted = true
  · obtain ⟨rfl, rfl⟩ := counts
    simp only [receiveVote, notice, ne_eq, not_true_eq_false, Bool.true_eq_false, or_self, if_false,
      true_and]
    split_ifs
    · exact notify_events_eq ..
    · exact (List.append_nil _).symm
  · have refused : term ≠ msg.term ∨ granted = false := by
      rw [not_and_or] at counts
      exact counts.imp_right Bool.eq_false_of_not_eq_true
    have silent : srv.notice info (.receiveVote target msg (term, granted)) = none :=
      if_neg fun given => counts (Prod.mk.inj given.1)
    simp [receiveVote, refused, silent]

theorem receiveAppendReply_events {target : ServerId} {node : FollowerNode}
    {oldMatchIdx retryTimes : Nat} {msg : AppendEntriesMessage} {reply : Reply} :
    (srv.receiveAppendReply target node oldMatchIdx retryTimes msg reply).events =
      srv.events ++ srv.passed (srv.notice info (.receiveAppendReply target msg reply)) := by
  obtain ⟨term, success⟩ := reply
  cases success with
  | true => simp [receiveAppendReply, notice]
  | false =>
      by_cases greater : srv.state.currentTerm < term
      · simp only [receiveAppendReply, notice, greater, finishAppending,
          notify_withState]
        exact notify_events_eq ..
      · have silent : srv.notice info (.receiveAppendReply target msg (term, false)) = none :=
          if_neg fun given => greater given.2
        rw [silent, passed_none, List.append_nil, receiveAppendReply, if_neg (by simp),
          if_neg greater]
        split_ifs <;> rfl

theorem countReplica_events {target : ServerId} {node : FollowerNode} {idx : Nat} :
    (srv.countReplica info target node idx).1.events = srv.events := by
  unfold countReplica
  split
  · dsimp only
    split_ifs <;> rfl
  · exact applyReadyEntries_events _

/-- Such an event adds to the queue what passes the gate. -/
theorem step_events (taken : step info srv event = some result) (aside : event.Aside) :
    result.1.events = srv.events ++ srv.passed (srv.notice info event) := by
  cases event with
  | rpcAddLog msg =>
      obtain ⟨-, rfl⟩ := step_rpcAddLog.mp taken
      unfold rpcAddLog addLog
      split
      · split_ifs <;> exact (List.append_nil _).symm
      · exact (List.append_nil _).symm
  | addLogState =>
      obtain ⟨_, -, -, rfl⟩ := step_addLogState.mp taken
      exact (List.append_nil _).symm
  | receiveVote target msg reply =>
      obtain ⟨-, rfl⟩ := step_receiveVote.mp taken
      exact receiveVote_events
  | startAppending target =>
      obtain ⟨_, -, -, rfl⟩ := step_startAppending.mp taken
      exact (List.append_nil _).symm
  | interruptAppending target =>
      obtain ⟨_, -, -, rfl⟩ := step_interruptAppending.mp taken
      exact (List.append_nil _).symm
  | sendAppendEntries target =>
      obtain ⟨_, _, _, _, -, -, -, rfl⟩ := step_sendAppendEntries.mp taken
      exact (List.append_nil _).symm
  | failAppendEntries target =>
      obtain ⟨_, _, _, _, -, -, rfl⟩ := step_failAppendEntries.mp taken
      unfold retryAppending
      split_ifs <;> exact (List.append_nil _).symm
  | receiveAppendReply target msg reply =>
      obtain ⟨_, _, _, -, -, rfl⟩ := step_receiveAppendReply.mp taken
      exact receiveAppendReply_events
  | countReplica target =>
      obtain ⟨_, _, -, -, rfl⟩ := step_countReplica.mp taken
      exact countReplica_events.trans (List.append_nil _).symm
  | rpcRequestVote | rpcAppendEntries | timeout | transform => exact aside.elim

/-- What a step adds to the queue asks for one of the three identities. -/
def Asks (before after : Server) : Prop :=
  ∀ request ∈ after.events, request ∈ before.events ∨ request.1.Regular

theorem Asks.refl (srv : Server) : Asks srv srv := fun _ member => .inl member

theorem Asks.notify {after : Server} (asks : Asks srv after) (term : Nat) :
    Asks srv (after.notify .follower term) := by
  intro request member
  rcases notify_events_subset _ _ _ member with earlier | rfl
  · exact asks request earlier
  · exact .inr (.inl rfl)

theorem Asks.checkRpcTerm {after : Server} (asks : Asks srv after) (term : Nat)
    (identity : ServerIdentityNo) : Asks srv (after.checkRpcTerm term identity).1 := by
  unfold Server.checkRpcTerm
  split_ifs
  · have lowered : Asks srv { after with state.currentTerm := term } := asks
    exact lowered.notify term
  · exact asks
  · exact asks

theorem Asks.applyReadyEntries {after : Server} (asks : Asks srv after) :
    Asks srv after.applyReadyEntries.1 := by
  intro request member
  rw [applyReadyEntries_events] at member
  exact asks request member

theorem rpcRequestVote_asks (msg : RequestVoteMessage) : Asks srv (srv.rpcRequestVote msg).1 := by
  rcases rpcRequestVote_cases srv msg with ⟨-, runs⟩ | ⟨-, rests⟩
  · rw [runs]
    refine Asks.applyReadyEntries ?_
    have asked : Asks srv
        (if srv.identity ≠ .follower ∧ srv.state.currentTerm ≠ msg.term then
          srv.notify .follower msg.term else srv) := by
      split_ifs
      · exact (Asks.refl srv).notify _
      · exact .refl srv
    rw [requestVoteBody_eq]
    exact asked
  · rw [rests]
    exact .refl srv

theorem rpcAppendEntries_asks (msg : AppendEntriesMessage) :
    Asks srv (srv.rpcAppendEntries msg).1 := by
  rcases rpcAppendEntries_cases srv msg with ⟨-, -, runs⟩ | ⟨-, term, rests⟩
  · rw [runs]
    refine Asks.applyReadyEntries ?_
    have asked : Asks srv (srv.beforeAppend msg) := by
      unfold beforeAppend
      split_ifs
      · exact (Asks.refl srv).notify _
      · exact .refl srv
    rw [appendEntriesBody_eq]
    dsimp only
    split_ifs
    · exact asked.checkRpcTerm _ _
    · exact asked.checkRpcTerm _ _
  · rw [rests]
    exact .refl srv

/-- Nothing but a transformation changes what is queued for any other identity. -/
theorem step_asks (taken : step info srv event = some result)
    (kept : event ≠ .timeout ∧ event ≠ .transform) : Asks srv result.1 := by
  cases event with
  | rpcRequestVote msg =>
      obtain ⟨-, rfl⟩ := step_rpcRequestVote.mp taken
      exact rpcRequestVote_asks msg
  | rpcAppendEntries msg =>
      obtain ⟨-, rfl⟩ := step_rpcAppendEntries.mp taken
      exact rpcAppendEntries_asks msg
  | timeout => exact absurd rfl kept.1
  | transform => exact absurd rfl kept.2
  | _ =>
      intro request member
      rw [step_events taken trivial] at member
      exact (List.mem_append.mp member).imp_right fun added => notice_regular (mem_of_passed added)

/-- `init` of a new identity adds to the queue what passes the gate. -/
theorem enter_events {target : ServerIdentityNo} :
    (srv.enter info target).1.events = srv.events ++ srv.passed (srv.initNotice info target) := by
  cases target with
  | candidate =>
      simp only [enter, candidateInit, campaign, initNotice, true_and]
      split_ifs
      · exact notify_events_eq ..
      · exact (List.append_nil _).symm
  | _ => simp [enter, initNotice, leaderInit]

@[simp] theorem leave_identity : srv.leave.identity = srv.identity := by
  unfold leave; split <;> rfl

@[simp] theorem enter_identity {target : ServerIdentityNo} :
    (srv.enter info target).1.identity = target := by
  cases target <;> simp [enter, candidateInit, campaign, leaderInit]
  split_ifs <;> simp

/-! ## Threads of an identity -/

/-- No thread runs that a candidate or a leader has started. -/
structure Cleared (srv : Server) : Prop where
  /-- There are no vote requests. -/
  requests : srv.candidate.requests = []
  /-- There are no appending threads. -/
  nodes : ∀ target, srv.leader.followerNodes target = none

theorem Tidy.cleared (tidy : srv.Tidy) (idle : srv.identity ≠ .candidate ∧ srv.identity ≠ .leader) :
    srv.Cleared where
  requests := tidy.requests idle.1
  nodes := tidy.nodes idle.2

theorem Tidy.cleared_leave (tidy : srv.Tidy) : srv.leave.Cleared where
  requests := tidy.leave_requests
  nodes := tidy.leave_nodes

theorem Cleared.tidy (cleared : srv.Cleared) : srv.Tidy where
  requests _ := cleared.requests
  nodes _ := cleared.nodes

/-- Only `init` starts the first thread of an identity. -/
theorem Cleared.step (cleared : srv.Cleared) (taken : Server.step info srv event = some result)
    (kept : event ≠ .transform) : result.1.Cleared where
  requests := by
    cases event with
    | receiveVote target msg reply =>
        obtain ⟨asked, -⟩ := step_receiveVote.mp taken
        simp [cleared.requests] at asked
    | transform => exact absurd rfl kept
    | _ => rw [(step_sameRole taken trivial).candidate, cleared.requests]
  nodes target := (step_office taken kept).2.2 target (cleared.nodes target)

/-- Without threads nobody calls `notify`. -/
theorem Cleared.notice (cleared : srv.Cleared) (taken : Server.step info srv event = some result) :
    srv.notice info event = none := by
  cases event with
  | receiveVote target msg reply =>
      obtain ⟨asked, -⟩ := step_receiveVote.mp taken
      simp [cleared.requests] at asked
  | receiveAppendReply target msg reply =>
      obtain ⟨_, _, _, known, -⟩ := step_receiveAppendReply.mp taken
      simp [cleared.nodes] at known
  | _ => rfl

/-- An identity starts threads of its own kind. -/
theorem Cleared.enter (cleared : srv.Cleared) (target : ServerIdentityNo) :
    (srv.enter info target).1.Tidy := by
  cases target with
  | candidate =>
      refine ⟨fun other => absurd ?_ other, fun _ follower => ?_⟩
      · simp only [Server.enter, candidateInit, campaign]
        split_ifs <;> simp
      · simp only [Server.enter, candidateInit, campaign]
        split_ifs <;> simp [cleared.nodes]
  | leader => exact ⟨fun _ => cleared.requests, fun other => absurd rfl other⟩
  | _ => exact ⟨fun _ => cleared.requests, fun _ => cleared.nodes⟩

end Server

end Quintet
