import QuintetRaft.Library.Execution
import QuintetRaft.Safety.OwnTerm

/-!
# Election timeouts and the gate of the transformer

`IdentityTransformer::notify` lets one transformation pass in a term, whatever its kind.  A follower
or candidate with nothing queued whose gate is closed in its current term ignores its one-shot
election timer.
-/

namespace Quintet

namespace Server

variable {info : ServerInfo} {srv : Server} {event : Event} {result : Server × List Output}

/-- A follower or candidate with no transformation queued: only its timer can change its
identity. -/
def Waiting (srv : Server) : Prop :=
  (srv.identity = .follower ∨ srv.identity = .candidate) ∧ srv.events = []

instance (srv : Server) : Decidable srv.Waiting := inferInstanceAs (Decidable (_ ∧ _))

/-- The gate of a waiting server is open in its current term. -/
def Alert (srv : Server) : Prop := srv.Waiting → srv.accepts srv.state.currentTerm

instance (srv : Server) : Decidable srv.Alert := inferInstanceAs (Decidable (_ → _))

/-- It waits for an election, and its next timeout would start one. -/
def Poised (srv : Server) : Prop := srv.Waiting ∧ srv.accepts srv.state.currentTerm

instance (srv : Server) : Decidable srv.Poised := inferInstanceAs (Decidable (_ ∧ _))

/-- When the election timer of a waiting server fires, it enqueues a candidacy. -/
def AnswersTimeout (info : ServerInfo) (srv : Server) : Prop :=
  srv.Waiting → ∃ result, step info srv .timeout = some result ∧
    result.1.events = [(.candidate, srv.state.currentTerm)]

/-- A timeout is answered exactly when the gate is open. -/
theorem answersTimeout_iff : srv.AnswersTimeout info ↔ srv.Alert := by
  refine forall_congr' fun waiting => ?_
  have fires : step info srv .timeout = some (srv.notify .candidate srv.state.currentTerm, []) :=
    step_timeout.mpr ⟨waiting.1, rfl⟩
  rw [fires]
  by_cases opens : srv.accepts srv.state.currentTerm
  · simp [notify_events, opens, waiting.2]
  · simp [notify_events, opens, waiting.2]

/-- The steps that leave a waiting server with its gate closed. -/
def ClosesGate (srv : Server) : Event → Prop
  | .rpcRequestVote msg =>
      -- the term becomes that of the message
      srv.Waiting ∧ ¬ srv.accepts msg.term
  | .rpcAppendEntries msg =>
      -- `checkRpcTerm` lowers the term
      srv.Waiting ∧ srv.identity = .candidate ∧ msg.term < srv.state.currentTerm ∧
        ¬ srv.accepts msg.term
  | .transform =>
      -- a step-down, or a candidacy in a term that is not new
      srv.events.tail = [] ∧
        (srv.nextTarget = some .follower ∧ ¬ srv.accepts srv.state.currentTerm ∨
          srv.nextTarget = some .candidate ∧
            ¬ srv.accepts (incrementTerm srv.state.currentTerm))
  | _ => False

instance (srv : Server) : (event : Event) → Decidable (srv.ClosesGate event)
  | .rpcRequestVote _ | .rpcAppendEntries _ | .transform => inferInstanceAs (Decidable (_ ∧ _))
  | .rpcAddLog _ | .addLogState | .timeout | .receiveVote .. | .startAppending _
  | .interruptAppending _ | .sendAppendEntries _ | .failAppendEntries _
  | .receiveAppendReply .. | .countReplica _ => .isFalse id

/-- The gate of a server depends on its identity, its term and its queue. -/
theorem alert_congr {other : Server} (identity : srv.identity = other.identity)
    (currentTerm : srv.state.currentTerm = other.state.currentTerm)
    (events : srv.events = other.events) (termTriggered : srv.termTriggered = other.termTriggered) :
    srv.Alert ↔ other.Alert := by
  simp [Alert, Waiting, accepts, identity, currentTerm, events, termTriggered]

/-- Leaders do not wait for an election. -/
theorem alert_of_leader (role : srv.identity = .leader) : srv.Alert := by
  rintro ⟨waits | waits, -⟩ <;> simp [role] at waits

/-- A signal either is queued or changes nothing. -/
theorem Alert.notify (alert : srv.Alert) (target : ServerIdentityNo) (term : Nat) :
    (srv.notify target term).Alert := by
  unfold Server.notify
  split_ifs
  · simp [Alert, Waiting]
  · exact alert

/-- A signal of the current term leaves the gate open for whoever still waits. -/
theorem notify_alert_iff (srv : Server) (target : ServerIdentityNo) :
    (srv.notify target srv.state.currentTerm).Alert ↔ srv.Alert := by
  unfold notify
  split_ifs with opens
  · simp [Alert, Waiting, opens]
  · exact Iff.rfl

/-- The server in another term. -/
def inTerm (term : Nat) (srv : Server) : Server := { srv with state.currentTerm := term }

theorem inTerm_alert_iff (term : Nat) :
    (srv.inTerm term).Alert ↔ ¬ (srv.Waiting ∧ ¬ srv.accepts term) :=
  not_and_not_right.symm

/-- Of the shared state only the term matters. -/
theorem withState_alert_iff (state : ServerState) :
    Alert { srv with state } ↔ (srv.inTerm state.currentTerm).Alert :=
  Iff.rfl

@[simp] theorem applyReadyEntries_alert_iff : srv.applyReadyEntries.1.Alert ↔ srv.Alert := by
  apply alert_congr <;> simp

/-- A signal of the term the server changes to makes no difference to whether its gate is open
there. -/
theorem notify_inTerm_alert_iff (target : ServerIdentityNo) (term : Nat) :
    ((srv.notify target term).inTerm term).Alert ↔ (srv.inTerm term).Alert := by
  rw [inTerm, notify_state, ← notify_withState]
  exact notify_alert_iff (srv.inTerm term) target

theorem rpcRequestVote_alert_iff (alert : srv.Alert) (msg : RequestVoteMessage) :
    (srv.rpcRequestVote msg).1.Alert ↔ ¬ srv.ClosesGate (.rpcRequestVote msg) := by
  rcases rpcRequestVote_cases srv msg with ⟨-, runs⟩ | ⟨idle, rests⟩
  · rw [runs, deferApply, applyReadyEntries_alert_iff, requestVoteBody_eq, withState_alert_iff,
      ClosesGate, ← inTerm_alert_iff]
    by_cases asks : srv.identity ≠ .follower ∧ srv.state.currentTerm ≠ msg.term
    · rw [if_pos asks]
      exact notify_inTerm_alert_iff .follower msg.term
    · rw [if_neg asks]
  · rw [rests]
    refine iff_of_true alert ?_
    rintro ⟨⟨waits, -⟩, -⟩
    exact idle (by rcases waits with role | role <;> simp [Serving, role])

theorem rpcAppendEntries_alert_iff (alert : srv.Alert) (msg : AppendEntriesMessage) :
    (srv.rpcAppendEntries msg).1.Alert ↔ ¬ srv.ClosesGate (.rpcAppendEntries msg) := by
  rcases rpcAppendEntries_cases srv msg with ⟨-, passes, runs⟩ | ⟨refused, term, rests⟩
  · -- after `checkRpcTerm` the handler changes neither the term nor the queue
    have checked : (srv.rpcAppendEntries msg).1.Alert ↔
        ((srv.beforeAppend msg).checkRpcTerm msg.term srv.identity).1.Alert := by
      rw [runs, deferApply, applyReadyEntries_alert_iff, appendEntriesBody_eq]
      dsimp only
      split_ifs
      · apply alert_congr <;> simp
      · exact Iff.rfl
    rw [checked]
    by_cases lower : msg.term < srv.state.currentTerm
    · have asked : srv.beforeAppend msg = srv := by
        unfold beforeAppend
        rw [if_neg fun same => lower.ne same.2]
      have notFollower : srv.identity ≠ .follower := fun role => by
        have upTo := passes role
        omega
      rw [asked, checkRpcTerm_of_lt _ _ lower, if_pos notFollower, withState_alert_iff,
        notify_inTerm_alert_iff, inTerm_alert_iff]
      refine not_congr (and_congr_right fun waits => ?_)
      simp [waits.1.resolve_left notFollower, lower]
    · have upTo : (srv.beforeAppend msg).state.currentTerm ≤ msg.term := by
        simpa using lower
      rw [checkRpcTerm_of_le _ _ upTo]
      refine iff_of_true ?_ fun closes => lower closes.2.2.1
      unfold beforeAppend
      split_ifs
      · exact alert.notify .follower _
      · exact alert
  · rw [rests]
    refine iff_of_true alert ?_
    rintro ⟨-, role, -⟩
    exact refused ⟨by simp [Serving, role], by simp [role]⟩

theorem transform_alert_iff {target : ServerIdentityNo} :
    (srv.transform info target).1.Alert ↔
      (srv.events = [] → (target = .follower → srv.accepts srv.state.currentTerm) ∧
        (target = .candidate → srv.accepts (incrementTerm srv.state.currentTerm))) := by
  cases target with
  | candidate =>
      let standing : Server :=
        { srv.leave with
          identity := .candidate
          state := { srv.state with
            currentTerm := incrementTerm srv.state.currentTerm, votedFor := info.localId }
          candidate := { srv.leave.candidate with votesReceived := 1 } }
      have stands : (srv.transform info .candidate).1.Alert ↔ standing.Alert := by
        simp only [transform, enter, candidateInit, campaign, leave_state]
        split_ifs
        · exact notify_alert_iff standing .leader
        · exact Iff.rfl
      rw [stands]
      simp [standing, Alert, Waiting, accepts]
  | _ => simp [transform, enter, Alert, Waiting, accepts, leaderInit]

/-- A step leaves a server with an open gate unless it closes it. -/
theorem alert_step_iff (tidy : srv.Tidy) (alert : srv.Alert)
    (taken : step info srv event = some result) : result.1.Alert ↔ ¬ srv.ClosesGate event := by
  have leads : srv.identity = .leader → event ≠ .transform → result.1.Alert :=
    fun role kept => alert_of_leader ((step_identity taken kept).trans role)
  cases event with
  | rpcRequestVote msg =>
      obtain ⟨-, rfl⟩ := step_rpcRequestVote.mp taken
      exact rpcRequestVote_alert_iff alert msg
  | rpcAppendEntries msg =>
      obtain ⟨-, rfl⟩ := step_rpcAppendEntries.mp taken
      exact rpcAppendEntries_alert_iff alert msg
  | transform =>
      obtain ⟨target, term, rest, queue, -, rfl⟩ := step_transform.mp taken
      rw [transform_alert_iff, ClosesGate, not_and, not_or, not_and_not_right, not_and_not_right]
      simp [nextTarget, queue, accepts]
  | rpcAddLog msg =>
      refine iff_of_true ?_ id
      by_cases role : srv.identity = .leader
      · exact leads role (by simp)
      · obtain ⟨-, rfl⟩ := step_rpcAddLog.mp taken
        unfold rpcAddLog
        split
        · exact absurd ‹_› role
        · exact alert
  | addLogState =>
      obtain ⟨_, -, -, rfl⟩ := step_addLogState.mp taken
      exact iff_of_true alert id
  | timeout =>
      obtain ⟨-, rfl⟩ := step_timeout.mp taken
      exact iff_of_true (alert.notify .candidate _) id
  | receiveVote target msg reply =>
      obtain ⟨-, rfl⟩ := step_receiveVote.mp taken
      refine iff_of_true ?_ id
      simp only [receiveVote]
      split_ifs
      · exact alert
      · refine Alert.notify ?_ .leader msg.term
        exact alert
      · exact alert
  | startAppending target =>
      obtain ⟨_, known, -⟩ := step_startAppending.mp taken
      exact iff_of_true (leads (tidy.role_of_known known) (by simp)) id
  | interruptAppending target =>
      obtain ⟨_, known, -⟩ := step_interruptAppending.mp taken
      exact iff_of_true (leads (tidy.role_of_known known) (by simp)) id
  | sendAppendEntries target =>
      obtain ⟨_, _, _, _, known, -⟩ := step_sendAppendEntries.mp taken
      exact iff_of_true (leads (tidy.role_of_known known) (by simp)) id
  | failAppendEntries target =>
      obtain ⟨_, _, _, _, known, -⟩ := step_failAppendEntries.mp taken
      exact iff_of_true (leads (tidy.role_of_known known) (by simp)) id
  | receiveAppendReply target msg reply =>
      obtain ⟨_, _, _, known, -⟩ := step_receiveAppendReply.mp taken
      exact iff_of_true (leads (tidy.role_of_known known) (by simp)) id
  | countReplica target =>
      obtain ⟨_, _, known, -⟩ := step_countReplica.mp taken
      exact iff_of_true (leads (tidy.role_of_known known) (by simp)) id

end Server

namespace Cluster

variable {config : ClusterConfig} {before after : Cluster} {label : ServerId × Event}

/-- The election timer of every server that waits for an election enqueues a candidacy, and its
gate is open in its current term. -/
def TimeoutsCount (config : ClusterConfig) (_ : Cluster) (_ : ServerId × Event) (after : Cluster) :
    Prop :=
  ∀ id, (after id).server.AnswersTimeout (config.info id) ∧ (after id).server.Alert

/-- No step leaves a server that waits for an election with its gate closed. -/
def KeepsGateOpen (before : Cluster) (label : ServerId × Event) (_ : Cluster) : Prop :=
  ¬ (before label.1).server.ClosesGate label.2

instance (before : Cluster) (label : ServerId × Event) (after : Cluster) :
    Decidable (KeepsGateOpen before label after) :=
  inferInstanceAs (Decidable (¬ _))

/-- What holds of all servers while every gate is open. -/
structure AlertRecord (cluster : Cluster) : Prop where
  /-- Private data belongs to the current identity. -/
  tidy : ∀ id, (cluster id).server.Tidy
  /-- Gates are open. -/
  alert : ∀ id, (cluster id).server.Alert

theorem alertRecord_init : AlertRecord init where
  tidy _ := Server.tidy_init
  alert _ _ := .inl rfl

theorem AlertRecord.step (record : AlertRecord before)
    (taken : Cluster.step config before label = some after)
    (opens : KeepsGateOpen before label after) : AlertRecord after where
  tidy := forall_step taken (fun _ node => node.server.Tidy) (fun id _ => record.tidy id)
    fun _ _ moved => (record.tidy label.1).step moved
  alert := forall_step taken (fun _ node => node.server.Alert) (fun id _ => record.alert id)
    fun _ _ moved =>
      (Server.alert_step_iff (record.tidy label.1) (record.alert label.1) moved).mpr opens

/-- All timeouts count after a step exactly when it closes no gate. -/
theorem AlertRecord.counts_iff (record : AlertRecord before)
    (taken : Cluster.step config before label = some after) :
    TimeoutsCount config before label after ↔ KeepsGateOpen before label after := by
  constructor
  · intro counts
    obtain ⟨-, -, result, moved, rfl⟩ := step_eq_some.mp taken
    have alert := (counts label.1).2
    rw [Function.update_self] at alert
    exact (Server.alert_step_iff (record.tidy label.1) (record.alert label.1) moved).mp alert
  · intro opens id
    have alert := (record.step taken opens).alert id
    exact ⟨Server.answersTimeout_iff.mpr alert, alert⟩

/-- No election timeout is swallowed along a run exactly when no step closes the gate of a server
that is left waiting for an election. -/
theorem timeoutsCount_iff (config : ClusterConfig) (labels : List (ServerId × Event)) :
    Execution.Along (step config) (TimeoutsCount config) labels init ↔
      Execution.Along (step config) KeepsGateOpen labels init :=
  Execution.along_congr_of_invariant (fun _ _ _ => AlertRecord.counts_iff)
    (fun _ _ _ => AlertRecord.step) alertRecord_init

/-- Server 3 stands in term 1 as well, and steps down when it hears from server 1. -/
def steppingDown : List (ServerId × Event) :=
  [(localServer 3, .timeout), (localServer 3, .transform),
    (localServer 1, .startAppending (localServer 3)),
    (localServer 1, .sendAppendEntries (localServer 3)),
    (localServer 3, .rpcAppendEntries { term := 1, leaderId := localServer 1 }),
    (localServer 3, .transform)]

/-- Server 3 is a follower in term 1 whose next election timeout does nothing. -/
theorem timeoutsCount_counterexample :
    (Execution.run (step trio) (firstElection ++ steppingDown) init).isSome ∧
      ¬ Execution.Along (step trio) (TimeoutsCount trio) (firstElection ++ steppingDown) init := by
  have enabled : (Execution.run (step trio) (firstElection ++ steppingDown) init).isSome := by
    decide +kernel
  have fails : ¬ Execution.Along (step trio)
      (fun _ _ after => (after (localServer 3)).server.Alert)
      (firstElection ++ steppingDown) init := by
    decide +kernel
  exact ⟨enabled, fun counts => fails (counts.mono fun _ _ _ holds => (holds _).2)⟩

end Cluster

end Quintet
