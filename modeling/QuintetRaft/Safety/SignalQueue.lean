import QuintetRaft.Model.Hazards
import QuintetRaft.Model.Notices

/-!
# The queue behind the gate

What `IdentityTransformer::notify` is called with in a step that does not lower the term, and the
order of what it lets pass: the terms in the queue grow, and the gate remembers the last of them.
-/

namespace Quintet

namespace Server

variable {info : ServerInfo} {srv other : Server} {event : Event}
  {result : Server × List Output}

/-- The transformations that wait, and the gate that has let them pass. -/
def queue (srv : Server) : List (ServerIdentityNo × Nat) × Nat := (srv.events, srv.termTriggered)

/-- What `notify` is called with in a step, apart from a transformation. -/
def signal (info : ServerInfo) (srv : Server) : Event → Option (ServerIdentityNo × Nat)
  | .rpcRequestVote msg =>
      if srv.Serving ∧ srv.identity ≠ .follower ∧ srv.state.currentTerm ≠ msg.term then
        some (.follower, msg.term)
      else none
  | .rpcAppendEntries msg =>
      if srv.identity = .candidate ∧ msg.term = srv.state.currentTerm then
        some (.follower, srv.state.currentTerm)
      else none
  | .timeout => some (.candidate, srv.state.currentTerm)
  | event => srv.notice info event

/-- The server after `notify` has been called. -/
def signalled (srv : Server) : Option (ServerIdentityNo × Nat) → Server
  | none => srv
  | some request => srv.notify request.1 request.2

theorem notify_queue (target : ServerIdentityNo) (term : Nat) :
    (srv.notify target term).queue =
      if srv.accepts term then (srv.events ++ [(target, term)], term) else srv.queue := by
  unfold notify
  split_ifs <;> rfl

/-- The queue after a call depends on the queue before it. -/
theorem notify_queue_congr (same : srv.queue = other.queue) (target : ServerIdentityNo)
    (term : Nat) : (srv.notify target term).queue = (other.notify target term).queue := by
  obtain ⟨events, gate⟩ := Prod.mk.inj same
  have opens : srv.accepts term ↔ other.accepts term := by simp only [accepts, gate]
  simp only [notify_queue, opens, events, same]

theorem rpcRequestVote_queue (msg : RequestVoteMessage) :
    (srv.rpcRequestVote msg).1.queue =
      (srv.signalled (srv.signal info (.rpcRequestVote msg))).queue := by
  rcases rpcRequestVote_cases srv msg with ⟨serving, runs⟩ | ⟨idle, rests⟩
  · rw [runs, deferApply, requestVoteBody_eq]
    by_cases asks : srv.identity ≠ .follower ∧ srv.state.currentTerm ≠ msg.term
    · have called : srv.signal info (.rpcRequestVote msg) = some (.follower, msg.term) :=
        if_pos ⟨serving, asks⟩
      rw [if_pos asks, called]
      simp [queue, signalled]
    · have silent : srv.signal info (.rpcRequestVote msg) = none := if_neg fun all => asks all.2
      rw [if_neg asks, silent]
      simp [queue, signalled]
  · have silent : srv.signal info (.rpcRequestVote msg) = none := if_neg fun all => idle all.1
    rw [rests, silent]
    rfl

theorem rpcAppendEntries_queue (msg : AppendEntriesMessage)
    (keeps : ¬ srv.LowersTerm (.rpcAppendEntries msg)) :
    (srv.rpcAppendEntries msg).1.queue =
      (srv.signalled (srv.signal info (.rpcAppendEntries msg))).queue := by
  have asked : (srv.beforeAppend msg).queue =
      (srv.signalled (srv.signal info (.rpcAppendEntries msg))).queue := by
    by_cases asks : srv.identity = .candidate ∧ msg.term = srv.state.currentTerm
    · have called : srv.signal info (.rpcAppendEntries msg) =
          some (.follower, srv.state.currentTerm) := if_pos asks
      rw [beforeAppend, if_pos asks, called]
      rfl
    · have silent : srv.signal info (.rpcAppendEntries msg) = none := if_neg asks
      rw [beforeAppend, if_neg asks, silent]
      rfl
  rcases rpcAppendEntries_cases srv msg with ⟨serving, passes, runs⟩ | ⟨refused, term, rests⟩
  · have upTo : (srv.beforeAppend msg).state.currentTerm ≤ msg.term := by
      rw [beforeAppend_state]
      rcases serving with role | role
      · exact passes role
      · exact Nat.le_of_not_lt fun lower => keeps (.inr ⟨msg, rfl, role, lower⟩)
    rw [← asked, runs, deferApply, appendEntriesBody_eq, checkRpcTerm_of_le _ _ upTo]
    dsimp only
    split_ifs <;> simp [queue]
  · have silent : srv.signal info (.rpcAppendEntries msg) = none := if_neg fun asks =>
      refused ⟨.inr (.inl asks.1), fun follows => by simp [asks.1] at follows⟩
    rw [rests, silent]
    rfl

theorem receiveVote_queue {target : ServerId} {msg : RequestVoteMessage} {reply : Reply} :
    (srv.receiveVote info target msg reply).queue =
      (srv.signalled (srv.signal info (.receiveVote target msg reply))).queue := by
  obtain ⟨term, granted⟩ := reply
  by_cases wins : (term, granted) = (msg.term, true) ∧
      info.exceedsHalf (srv.candidate.votesReceived + 1)
  · have called : srv.signal info (.receiveVote target msg (term, granted)) =
        some (.leader, msg.term) := if_pos wins
    obtain ⟨same, many⟩ := wins
    obtain ⟨rfl, rfl⟩ := Prod.mk.inj same
    rw [called, receiveVote, if_neg (by simp)]
    dsimp only
    rw [if_pos many]
    change _ = (srv.notify .leader msg.term).queue
    refine notify_queue_congr ?_ _ _
    rfl
  · have silent : srv.signal info (.receiveVote target msg (term, granted)) = none := if_neg wins
    rw [silent, receiveVote]
    dsimp only
    split_ifs with refused many
    · rfl
    · push Not at refused
      exact absurd ⟨Prod.ext refused.1 (Bool.eq_true_of_not_eq_false refused.2), many⟩ wins
    · rfl

theorem receiveAppendReply_queue {target : ServerId} {node : FollowerNode}
    {oldMatchIdx retryTimes : Nat} {msg : AppendEntriesMessage} {reply : Reply} :
    (srv.receiveAppendReply target node oldMatchIdx retryTimes msg reply).queue =
      (srv.signalled (srv.signal info (.receiveAppendReply target msg reply))).queue := by
  by_cases asks : reply.2 = false ∧ srv.state.currentTerm < reply.1
  · have called : srv.signal info (.receiveAppendReply target msg reply) =
        some (.follower, reply.1) := if_pos asks
    rw [called, receiveAppendReply, if_neg (by simp [asks.1]), if_pos asks.2]
    change ({ srv with state.currentTerm := reply.1 }.notify .follower reply.1).queue =
      (srv.notify .follower reply.1).queue
    refine notify_queue_congr ?_ _ _
    rfl
  · have silent : srv.signal info (.receiveAppendReply target msg reply) = none := if_neg asks
    rw [silent, receiveAppendReply]
    split_ifs with success greater
    · rfl
    · exact absurd ⟨Bool.eq_false_of_not_eq_true success, greater⟩ asks
    · rfl
    · rfl

/-- A step other than a transformation makes one call of `notify`, or none. -/
theorem step_queue (taken : step info srv event = some result) (kept : event ≠ .transform)
    (keeps : ¬ srv.LowersTerm event) :
    result.1.queue = (srv.signalled (srv.signal info event)).queue := by
  cases event with
  | rpcRequestVote msg =>
      obtain ⟨-, rfl⟩ := step_rpcRequestVote.mp taken
      exact rpcRequestVote_queue msg
  | rpcAppendEntries msg =>
      obtain ⟨-, rfl⟩ := step_rpcAppendEntries.mp taken
      exact rpcAppendEntries_queue msg keeps
  | rpcAddLog msg =>
      obtain ⟨-, rfl⟩ := step_rpcAddLog.mp taken
      unfold rpcAddLog addLog
      split
      · split_ifs <;> rfl
      · rfl
  | addLogState =>
      obtain ⟨_, -, -, rfl⟩ := step_addLogState.mp taken
      rfl
  | timeout =>
      obtain ⟨-, rfl⟩ := step_timeout.mp taken
      rfl
  | transform => exact absurd rfl kept
  | receiveVote target msg reply =>
      obtain ⟨-, rfl⟩ := step_receiveVote.mp taken
      exact receiveVote_queue
  | startAppending target =>
      obtain ⟨_, -, -, rfl⟩ := step_startAppending.mp taken
      rfl
  | interruptAppending target =>
      obtain ⟨_, -, -, rfl⟩ := step_interruptAppending.mp taken
      rfl
  | sendAppendEntries target =>
      obtain ⟨_, _, _, _, -, -, -, rfl⟩ := step_sendAppendEntries.mp taken
      rfl
  | failAppendEntries target =>
      obtain ⟨_, _, _, _, -, -, rfl⟩ := step_failAppendEntries.mp taken
      unfold retryAppending
      split_ifs <;> rfl
  | receiveAppendReply target msg reply =>
      obtain ⟨_, _, _, -, -, rfl⟩ := step_receiveAppendReply.mp taken
      exact receiveAppendReply_queue
  | countReplica target =>
      obtain ⟨_, _, -, -, rfl⟩ := step_countReplica.mp taken
      unfold countReplica
      split
      · dsimp only
        split_ifs <;> rfl
      · simp [queue, finishAppending, signalled, signal, notice]

theorem campaign_queue :
    (srv.campaign info).queue = (srv.signalled (srv.initNotice info .candidate)).queue := by
  by_cases alone : info.exceedsHalf 1
  · have called : srv.initNotice info .candidate =
        some (.leader, incrementTerm srv.state.currentTerm) := if_pos ⟨rfl, alone⟩
    simp only [campaign, if_pos alone, called]
    change _ = (srv.notify .leader (incrementTerm srv.state.currentTerm)).queue
    refine notify_queue_congr ?_ _ _
    rfl
  · have silent : srv.initNotice info .candidate = none := if_neg fun both => alone both.2
    simp only [campaign, if_neg alone, silent]
    rfl

theorem signalled_queue_congr (same : srv.queue = other.queue)
    (call : Option (ServerIdentityNo × Nat)) :
    (srv.signalled call).queue = (other.signalled call).queue := by
  cases call with
  | none => exact same
  | some request => exact notify_queue_congr same _ _

theorem transform_queue {target : ServerIdentityNo} :
    (srv.transform info target).1.queue =
      (srv.signalled (srv.initNotice info target)).queue := by
  have left : srv.leave.queue = srv.queue := by
    unfold leave
    split <;> rfl
  cases target with
  | candidate =>
      have calls : initNotice info { srv.leave with identity := .candidate } .candidate =
          srv.initNotice info .candidate := by
        simp only [initNotice, leave_state]
      have ran : (campaign info { srv.leave with identity := .candidate }).queue = _ :=
        campaign_queue
      refine ran.trans ?_
      rw [calls]
      refine signalled_queue_congr ?_ _
      exact left
  | _ =>
      rw [initNotice, if_neg (by simp)]
      exact left

/-! ## The order of the queue -/

/-- The terms in the queue grow, and the gate remembers the last of them. -/
structure InLine (srv : Server) : Prop where
  /-- Later ones are greater; before the first term the gate is always open. -/
  ordered : srv.events.Pairwise fun earlier later =>
    earlier.2 = invalidTerm ∨ earlier.2 < later.2
  /-- None is greater than that of the gate. -/
  upTo : ∀ request ∈ srv.events, request.2 ≤ srv.termTriggered
  /-- The last one is that of the gate. -/
  last : ∀ request ∈ srv.events.getLast?, request.2 = srv.termTriggered

theorem inLine_init : InLine {} := ⟨.nil, by simp, by simp⟩

theorem InLine.congr (inLine : srv.InLine) (same : other.queue = srv.queue) : other.InLine := by
  obtain ⟨events, gate⟩ := Prod.mk.inj same
  exact ⟨events ▸ inLine.ordered, by rw [events, gate]; exact inLine.upTo,
    by rw [events, gate]; exact inLine.last⟩

theorem InLine.signalled (inLine : srv.InLine) (call : Option (ServerIdentityNo × Nat)) :
    (srv.signalled call).InLine := by
  rcases call with _ | ⟨target, term⟩
  · exact inLine
  · change (srv.notify target term).InLine
    unfold notify
    split_ifs with opens
    · have before : ∀ request ∈ srv.events,
          request.2 ≤ term ∧ (request.2 = invalidTerm ∨ request.2 < term) := by
        intro request member
        have upTo := inLine.upTo request member
        unfold accepts invalidTerm at opens
        unfold invalidTerm
        omega
      refine ⟨List.pairwise_append.mpr ⟨inLine.ordered, List.pairwise_singleton _ _, ?_⟩, ?_, ?_⟩
      · rintro request member later single
        obtain rfl := List.mem_singleton.mp single
        exact (before request member).2
      · refine List.forall_mem_append.mpr ⟨fun request member => (before request member).1, ?_⟩
        exact List.forall_mem_singleton.mpr (Nat.le_refl term)
      · intro request member
        rw [List.getLast?_concat] at member
        exact (Option.some.inj member) ▸ rfl
    · exact inLine

theorem InLine.rest (inLine : srv.InLine) {request : ServerIdentityNo × Nat}
    {rest : List (ServerIdentityNo × Nat)} (queue : srv.events = request :: rest) :
    InLine { srv with events := rest } where
  ordered := by
    have ordered := inLine.ordered
    rw [queue] at ordered
    exact ordered.of_cons
  upTo later member := inLine.upTo later (queue ▸ List.mem_cons_of_mem _ member)
  last later member := by
    refine inLine.last later ?_
    rw [queue, List.getLast?_cons, Option.mem_def.mp member]
    rfl

theorem InLine.step (inLine : srv.InLine) (taken : Server.step info srv event = some result)
    (keeps : ¬ srv.LowersTerm event) : result.1.InLine := by
  by_cases moves : event = .transform
  · subst moves
    obtain ⟨target, term, rest, queue, -, rfl⟩ := step_transform.mp taken
    exact ((inLine.rest queue).signalled _).congr transform_queue
  · exact (inLine.signalled _).congr (step_queue taken moves keeps)

end Server

end Quintet
