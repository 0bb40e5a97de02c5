import QuintetRaft.Model.Outputs

/-!
# Roles

The identity of a server, the transformations it asks for, and the private data of the candidate.
Only transformations and votes touch them; everything else keeps the role of a server.
-/

namespace Quintet

namespace Server

variable {info : ServerInfo} {srv before after final : Server} {event : Event}
  {result : Server × List Output}

/-- A server keeps its identity and its candidacy, and does not ask to become leader. -/
structure SameRole (before after : Server) : Prop where
  /-- The identity is the same. -/
  identity : after.identity = before.identity
  /-- So is the private data of the candidate. -/
  candidate : after.candidate = before.candidate
  /-- There is no new transformation to leader in the queue. -/
  elections : ∀ term, (ServerIdentityNo.leader, term) ∈ after.events →
    (ServerIdentityNo.leader, term) ∈ before.events

namespace SameRole

theorem refl (srv : Server) : SameRole srv srv := ⟨rfl, rfl, fun _ queued => queued⟩

theorem trans (first : SameRole before after) (second : SameRole after final) :
    SameRole before final where
  identity := second.identity.trans first.identity
  candidate := second.candidate.trans first.candidate
  elections term queued := first.elections term (second.elections term queued)

/-- The shared state is no part of the role. -/
theorem withState (same : SameRole before after) (state : ServerState) :
    SameRole before { after with state } :=
  ⟨same.identity, same.candidate, same.elections⟩

theorem notify (same : SameRole before after) {target : ServerIdentityNo}
    (other : target ≠ .leader) (term : Nat) : SameRole before (after.notify target term) where
  identity := (notify_identity ..).trans same.identity
  candidate := (notify_candidate ..).trans same.candidate
  elections opened queued := by
    refine same.elections opened ((notify_events_subset _ _ _ queued).resolve_right fun asked => ?_)
    exact other (Prod.mk.inj asked).1.symm

theorem setNode (same : SameRole before after) (target : ServerId) (node : FollowerNode) :
    SameRole before (after.setNode target node) :=
  ⟨same.identity, same.candidate, same.elections⟩

theorem applyReadyEntries (same : SameRole before after) :
    SameRole before after.applyReadyEntries.1 where
  identity := (applyReadyEntries_identity ..).trans same.identity
  candidate := (applyReadyEntries_candidate ..).trans same.candidate
  elections term queued := same.elections term (applyReadyEntries_events after ▸ queued)

theorem checkRpcTerm (same : SameRole before after) (term : Nat) (identity : ServerIdentityNo) :
    SameRole before (after.checkRpcTerm term identity).1 := by
  unfold Server.checkRpcTerm
  split_ifs
  · exact (same.withState _).notify (by decide) term
  · exact same.withState _
  · exact same

theorem beforeAppend (same : SameRole before after) (msg : AppendEntriesMessage) :
    SameRole before (after.beforeAppend msg) := by
  unfold Server.beforeAppend
  split_ifs
  · exact same.notify (by decide) _
  · exact same

theorem requestVoteBody (same : SameRole before after) (msg : RequestVoteMessage)
    (identity : ServerIdentityNo) : SameRole before (after.requestVoteBody msg identity).1 := by
  have asked : SameRole before
      (if identity ≠ .follower ∧ after.state.currentTerm ≠ msg.term then
        after.notify .follower msg.term else after) := by
    split_ifs
    · exact same.notify (by decide) _
    · exact same
  rw [requestVoteBody_eq]
  exact asked.withState _

theorem appendEntriesBody (same : SameRole before after) (msg : AppendEntriesMessage)
    (identity : ServerIdentityNo) : SameRole before (after.appendEntriesBody msg identity).1 := by
  rw [appendEntriesBody_eq]
  dsimp only
  split_ifs
  · exact (same.checkRpcTerm _ _).withState _
  · exact same.checkRpcTerm _ _

end SameRole

/-! ## RPC handlers -/

theorem rpcRequestVote_sameRole (msg : RequestVoteMessage) :
    SameRole srv (srv.rpcRequestVote msg).1 := by
  rcases rpcRequestVote_cases srv msg with ⟨-, runs⟩ | ⟨-, rests⟩
  · rw [runs]
    exact ((SameRole.refl srv).requestVoteBody msg _).applyReadyEntries
  · rw [rests]
    exact .refl srv

theorem rpcAppendEntries_sameRole (msg : AppendEntriesMessage) :
    SameRole srv (srv.rpcAppendEntries msg).1 := by
  rcases rpcAppendEntries_cases srv msg with ⟨-, -, runs⟩ | ⟨-, term, rests⟩
  · rw [runs]
    exact (((SameRole.refl srv).beforeAppend msg).appendEntriesBody msg _).applyReadyEntries
  · rw [rests]
    exact .refl srv

theorem rpcRequestVote_leader (msg : RequestVoteMessage) :
    (srv.rpcRequestVote msg).1.leader = srv.leader := by
  rcases rpcRequestVote_cases srv msg with ⟨-, runs⟩ | ⟨-, rests⟩
  · rw [runs, deferApply, applyReadyEntries_leader, requestVoteBody_eq]
    dsimp only
    split_ifs <;> simp
  · rw [rests]

theorem rpcAppendEntries_leader (msg : AppendEntriesMessage) :
    (srv.rpcAppendEntries msg).1.leader = srv.leader := by
  rcases rpcAppendEntries_cases srv msg with ⟨-, -, runs⟩ | ⟨-, term, rests⟩
  · rw [runs, deferApply, applyReadyEntries_leader, appendEntriesBody_eq]
    dsimp only
    split_ifs <;> simp
  · rw [rests]

/-! ## Transformations and votes -/

section Transform

variable {target : ServerIdentityNo}

theorem transform_identity : (srv.transform info target).1.identity = target := by
  cases target <;> simp [transform, enter, candidateInit, campaign, leaderInit]
  split_ifs <;> simp

theorem transform_candidate :
    (srv.transform info target).1.candidate =
      if target = .candidate then
        { votesReceived := 1
          requests := srv.leave.candidate.requests ++
            info.others.map (·, srv.candidacyMessage info) }
      else srv.leave.candidate := by
  cases target <;> simp [transform, enter, candidateInit, campaign, leaderInit,
    createRequestVoteMessage, candidacyMessage, ServerState.lastTerm]
  split_ifs <;> simp

theorem transform_leader :
    (srv.transform info target).1.leader =
      if target = .leader then (srv.leave.leaderInit info).leader else srv.leave.leader := by
  cases target <;> simp [transform, enter, candidateInit, campaign, leaderInit]
  split_ifs <;> simp

/-- Only a candidacy in a cluster of at most one server asks for anything at once. -/
theorem transform_events {request : ServerIdentityNo × Nat}
    (member : request ∈ (srv.transform info target).1.events) :
    request ∈ srv.events ∨
      target = .candidate ∧ info.exceedsHalf 1 ∧
        request = (.leader, incrementTerm srv.state.currentTerm) := by
  cases target with
  | candidate =>
      simp only [transform, enter, candidateInit, campaign] at member
      split_ifs at member with alone
      · rcases notify_events_subset _ _ _ member with earlier | asked
        · exact .inl (by simpa using earlier)
        · exact .inr ⟨rfl, alone, by simpa using asked⟩
      · exact .inl (by simpa using member)
  | _ => exact .inl (by simpa [transform, enter, leaderInit] using member)

end Transform

theorem receiveVote_candidate {target : ServerId} {msg : RequestVoteMessage} {reply : Reply} :
    (srv.receiveVote info target msg reply).candidate =
      { votesReceived :=
          if reply = (msg.term, true) then srv.candidate.votesReceived + 1
          else srv.candidate.votesReceived
        requests := srv.candidate.requests.erase (target, msg) } := by
  obtain ⟨term, granted⟩ := reply
  simp only [receiveVote, Prod.mk.injEq]
  by_cases counts : term = msg.term ∧ granted = true
  · obtain ⟨rfl, rfl⟩ := counts
    simp only [ne_eq, not_true_eq_false, Bool.true_eq_false, or_self, if_false, and_self, if_true]
    split_ifs <;> simp
  · have refused : term ≠ msg.term ∨ granted = false := by
      rw [not_and_or] at counts
      exact counts.imp_right Bool.eq_false_of_not_eq_true
    rw [if_neg counts, if_pos refused]

theorem leave_votesReceived : srv.leave.candidate.votesReceived = srv.candidate.votesReceived := by
  unfold leave; split <;> rfl

/-! ## Steps -/

/-- Away from transformations and votes a step keeps the role. -/
theorem step_sameRole (taken : step info srv event = some result)
    (kept : match event with
      | .transform | .receiveVote .. => False
      | _ => True) :
    SameRole srv result.1 := by
  cases event with
  | rpcRequestVote msg =>
      obtain ⟨-, rfl⟩ := step_rpcRequestVote.mp taken
      exact rpcRequestVote_sameRole msg
  | rpcAppendEntries msg =>
      obtain ⟨-, rfl⟩ := step_rpcAppendEntries.mp taken
      exact rpcAppendEntries_sameRole msg
  | rpcAddLog msg =>
      obtain ⟨-, rfl⟩ := step_rpcAddLog.mp taken
      unfold rpcAddLog addLog
      split
      · split_ifs
        · exact .refl srv
        · exact ⟨rfl, rfl, fun _ queued => queued⟩
      · exact .refl srv
  | addLogState =>
      obtain ⟨_, -, -, rfl⟩ := step_addLogState.mp taken
      exact ⟨rfl, rfl, fun _ queued => queued⟩
  | timeout =>
      obtain ⟨-, rfl⟩ := step_timeout.mp taken
      exact (SameRole.refl srv).notify (by decide) _
  | transform | receiveVote => exact kept.elim
  | startAppending target =>
      obtain ⟨_, -, -, rfl⟩ := step_startAppending.mp taken
      exact (SameRole.refl srv).setNode _ _
  | interruptAppending target =>
      obtain ⟨_, -, -, rfl⟩ := step_interruptAppending.mp taken
      exact (SameRole.refl srv).setNode _ _
  | sendAppendEntries target =>
      obtain ⟨_, _, _, _, -, -, -, rfl⟩ := step_sendAppendEntries.mp taken
      exact (SameRole.refl srv).setNode _ _
  | failAppendEntries target =>
      obtain ⟨_, _, _, _, -, -, rfl⟩ := step_failAppendEntries.mp taken
      unfold retryAppending
      split_ifs <;> exact (SameRole.refl srv).setNode _ _
  | receiveAppendReply target msg reply =>
      obtain ⟨_, _, _, -, -, rfl⟩ := step_receiveAppendReply.mp taken
      unfold receiveAppendReply
      split_ifs
      · exact (SameRole.refl srv).setNode _ _
      · exact (((SameRole.refl srv).withState _).notify (by decide) _).setNode _ _
      · exact (SameRole.refl srv).setNode _ _
      · exact (SameRole.refl srv).setNode _ _
  | countReplica target =>
      obtain ⟨_, _, -, -, rfl⟩ := step_countReplica.mp taken
      unfold countReplica
      split
      · dsimp only
        split_ifs <;> exact ⟨rfl, rfl, fun _ queued => queued⟩
      · exact ((SameRole.refl srv).setNode _ _).applyReadyEntries

/-- Only a transformation changes the identity. -/
theorem step_identity (taken : step info srv event = some result) (kept : event ≠ .transform) :
    result.1.identity = srv.identity := by
  cases event with
  | transform => exact absurd rfl kept
  | receiveVote target msg reply =>
      obtain ⟨-, rfl⟩ := step_receiveVote.mp taken
      simp only [receiveVote]
      split_ifs <;> simp
  | _ => exact (step_sameRole taken trivial).identity

/-- RPCs between candidates, timers and votes leave the private data of the leader alone. -/
theorem step_leader_of_quiet (taken : step info srv event = some result)
    (quiet : match event with
      | .rpcRequestVote _ | .rpcAppendEntries _ | .timeout | .receiveVote .. => True
      | _ => False) :
    result.1.leader = srv.leader := by
  cases event with
  | rpcRequestVote msg =>
      obtain ⟨-, rfl⟩ := step_rpcRequestVote.mp taken
      exact rpcRequestVote_leader msg
  | rpcAppendEntries msg =>
      obtain ⟨-, rfl⟩ := step_rpcAppendEntries.mp taken
      exact rpcAppendEntries_leader msg
  | timeout =>
      obtain ⟨-, rfl⟩ := step_timeout.mp taken
      simp
  | receiveVote target msg reply =>
      obtain ⟨-, rfl⟩ := step_receiveVote.mp taken
      simp only [receiveVote]
      split_ifs <;> simp
  | _ => exact quiet.elim

/-- A server asks to become leader only when it sees a majority of votes for its candidacy. -/
theorem step_events_leader {term : Nat} (taken : step info srv event = some result)
    (member : (ServerIdentityNo.leader, term) ∈ result.1.events) :
    (.leader, term) ∈ srv.events ∨
      (event = .transform ∧ srv.nextTarget = some .candidate ∧ info.exceedsHalf 1 ∧
        term = incrementTerm srv.state.currentTerm) ∨
      ∃ target msg, event = .receiveVote target msg (term, true) ∧ msg.term = term ∧
        info.exceedsHalf (srv.candidate.votesReceived + 1) := by
  cases event with
  | transform =>
      obtain ⟨target, queued, rest, queue, -, rfl⟩ := step_transform.mp taken
      rcases transform_events member with earlier | ⟨rfl, alone, equal⟩
      · exact .inl (by rw [queue]; exact List.mem_cons_of_mem _ earlier)
      · exact .inr (.inl ⟨rfl, by simp [nextTarget, queue], alone, (Prod.mk.inj equal).2⟩)
  | receiveVote target msg reply =>
      obtain ⟨-, rfl⟩ := step_receiveVote.mp taken
      simp only [receiveVote] at member
      split_ifs at member with refused majority
      · exact .inl member
      · rcases notify_events_subset _ _ _ member with earlier | asked
        · exact .inl earlier
        · obtain rfl := (Prod.mk.inj asked).2
          push Not at refused
          obtain ⟨sameTerm, granted⟩ := refused
          refine .inr (.inr ⟨target, msg, ?_, rfl, majority⟩)
          rw [← sameTerm, ← Bool.eq_true_of_not_eq_false granted]
      · exact .inl member
  | _ => exact .inl ((step_sameRole taken trivial).elections term member)

end Server

end Quintet
