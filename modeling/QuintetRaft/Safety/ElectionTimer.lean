import QuintetRaft.Model.ElectionTimer
import QuintetRaft.Safety.ElectionsSucceed

/-!
# Timers of servers that wait

A server that waits for an election with an open gate has its election timer running.  So what a
cluster can come to with timeouts of such servers it can come to with timers that fire but once.
-/

namespace Quintet

namespace Server

variable {info : ServerInfo} {srv : Server} {event : Event} {result : Server × List Output}

/-- A call of `notify` that queues nothing is refused. -/
theorem signalled_of_nil {call : Option (ServerIdentityNo × Nat)}
    (idle : (srv.signalled call).events = []) :
    srv.signalled call = srv ∧ ∀ request ∈ call, ¬ srv.accepts request.2 := by
  rcases call with _ | ⟨target, term⟩
  · exact ⟨rfl, by simp⟩
  · by_cases opens : srv.accepts term
    · simp [signalled, notify_events, opens] at idle
    · refine ⟨if_neg opens, ?_⟩
      rintro _ ⟨⟩
      exact opens

/-- What a step that calls `notify` as given leaves behind when nothing is queued. -/
theorem queue_of_nil {call : Option (ServerIdentityNo × Nat)}
    (called : result.1.queue = (srv.signalled call).queue) (idle : result.1.events = []) :
    srv.events = [] ∧ result.1.termTriggered = srv.termTriggered ∧
      ∀ request ∈ call, ¬ srv.accepts request.2 := by
  obtain ⟨events, gate⟩ := Prod.mk.inj called
  obtain ⟨same, refused⟩ := signalled_of_nil (events.symm.trans idle)
  rw [same] at events gate
  exact ⟨events.symm.trans idle, gate, refused⟩

/-- A candidate that lowers its term passes that term to `notify`. -/
theorem rpcAppendEntries_queue_of_lt {msg : AppendEntriesMessage}
    (role : srv.identity = .candidate) (lower : msg.term < srv.state.currentTerm) :
    (srv.rpcAppendEntries msg).1.queue = (srv.notify .follower msg.term).queue := by
  rcases rpcAppendEntries_cases srv msg with ⟨-, -, runs⟩ | ⟨refused, -⟩
  · have asked : srv.beforeAppend msg = srv := if_neg fun same => lower.ne same.2
    have lowered : (srv.checkRpcTerm msg.term srv.identity).1.queue =
        (srv.notify .follower msg.term).queue := by
      rw [checkRpcTerm_of_lt _ _ lower, if_pos (by simp [role])]
      rfl
    rw [← lowered, runs, deferApply, appendEntriesBody_eq, asked]
    dsimp only
    split_ifs <;> simp [queue]
  · exact absurd ⟨.inr (.inl role), by simp [role]⟩ refused

/-- A greater term is accepted where a smaller one is. -/
theorem accepts.mono {term term' : Nat} (opens : srv.accepts term) (upTo : term ≤ term') :
    srv.accepts term' :=
  opens.imp_right fun below => Nat.lt_of_lt_of_le below upTo

/-- A server waits with an open gate after a step only if it did before, or the step restarts its
timer. -/
theorem poised_of_step (taken : step info srv event = some result) (kept : event ≠ .transform)
    (poised : result.1.Poised) :
    event ≠ .timeout ∧ (srv.Poised ∨ srv.restartsTimer event) := by
  obtain ⟨⟨role, idle⟩, opens⟩ := poised
  rw [step_identity taken kept] at role
  have notLeader : srv.identity ≠ .leader := by rcases role with role | role <;> simp [role]
  rw [accepts, step_currentTerm taken] at opens
  -- an append request that lowers the term of a candidate calls `notify` in a way of its own
  by_cases lowers : srv.LowersTerm event ∧ ∃ msg, event = .rpcAppendEntries msg
  · obtain ⟨lowers, msg, rfl⟩ := lowers
    obtain ⟨stands, lower⟩ : srv.identity = .candidate ∧ msg.term < srv.state.currentTerm := by
      simpa [LowersTerm, Event.voteRequest, Event.appendRequest, notLeader] using lowers
    obtain ⟨-, rfl⟩ := step_rpcAppendEntries.mp taken
    have called : (srv.rpcAppendEntries msg).1.queue =
        (srv.signalled (some (.follower, msg.term))).queue :=
      rpcAppendEntries_queue_of_lt stands lower
    obtain ⟨events, gate, refused⟩ := queue_of_nil called idle
    rw [gate, termAfter, if_pos (.inl stands), Nat.min_eq_right lower.le] at opens
    exact absurd opens (refused _ rfl)
  · have called : result.1.queue = (srv.signalled (srv.signal info event)).queue := by
      by_cases votes : ∃ msg, event = .rpcRequestVote msg
      · obtain ⟨msg, rfl⟩ := votes
        obtain ⟨-, rfl⟩ := step_rpcRequestVote.mp taken
        exact rpcRequestVote_queue msg
      · refine step_queue taken kept fun lower => ?_
        cases event with
        | rpcRequestVote msg => exact votes ⟨msg, rfl⟩
        | rpcAppendEntries msg => exact lowers ⟨lower, msg, rfl⟩
        | _ => simp [LowersTerm, Event.voteRequest, Event.appendRequest] at lower
    obtain ⟨events, gate, refused⟩ := queue_of_nil called idle
    rw [gate] at opens
    have waits : srv.Waiting := ⟨role, events⟩
    have poised : srv.accepts srv.state.currentTerm → srv.Poised := fun accepts => ⟨waits, accepts⟩
    cases event with
    | timeout => exact absurd opens (refused _ rfl)
    | transform => exact absurd rfl kept
    | rpcRequestVote msg =>
        refine ⟨by simp, ?_⟩
        rw [termAfter, if_pos (by rcases role with role | role <;> simp [Serving, role])] at opens
        rcases role with follows | stands
        · rcases Nat.lt_or_ge srv.state.currentTerm msg.term with greater | upTo
          · exact .inr ⟨follows, .inl greater⟩
          · exact .inl (poised (accepts.mono opens upTo))
        · by_cases same : srv.state.currentTerm = msg.term
          · exact .inl (poised (same ▸ opens))
          · exact absurd opens (refused (.follower, msg.term) (by
              simp [signal, Serving, stands, same]))
    | rpcAppendEntries msg =>
        refine ⟨by simp, .inl (poised ?_)⟩
        simp only [termAfter] at opens
        split_ifs at opens
        · exact accepts.mono opens (Nat.min_le_left _ _)
        · exact opens
    | receiveAppendReply target msg reply =>
        refine ⟨by simp, .inl (poised ?_)⟩
        simp only [termAfter] at opens
        split_ifs at opens with success
        · exact opens
        · rcases Nat.lt_or_ge srv.state.currentTerm reply.1 with greater | upTo
          · rw [Nat.max_eq_right greater.le] at opens
            exact absurd opens (refused (.follower, reply.1) (by
              simp [signal, notice, greater, success]))
          · rwa [Nat.max_eq_left upTo] at opens
    | _ => exact ⟨by simp, .inl (poised opens)⟩

end Server

namespace TimedCluster

variable {config : ClusterConfig} {before after final : TimedCluster} {label : ServerId × Event}

/-- The timers of all servers that wait with an open gate run. -/
def Ready (timed : TimedCluster) : Prop :=
  ∀ id, (timed.nodes id).server.Poised → timed.armed id = true

theorem Ready.step (ready : before.Ready) (taken : step config before label = some after) :
    after.Ready := by
  obtain ⟨-, moved, armed⟩ := step_eq_some.mp taken
  obtain ⟨-, -, result, acts, nodes⟩ := Cluster.step_eq_some.mp moved
  intro id poised
  rw [armed]
  by_cases same : id = label.1
  · subst same
    rw [Function.update_self]
    rw [nodes, Function.update_self] at poised ⊢
    by_cases moves : label.2 = .transform
    · rw [moves]
      exact decide_eq_true poised.1.1
    · obtain ⟨kept, was | restarts⟩ := Server.poised_of_step acts moves poised
      · unfold armedAfter
        split
        · exact absurd ‹_› kept
        · exact absurd ‹_› moves
        · simp [ready label.1 was]
      · unfold armedAfter
        split
        · exact absurd ‹_› kept
        · exact absurd ‹_› moves
        · simp [restarts]
  · rw [Function.update_of_ne same]
    rw [nodes, Function.update_of_ne same] at poised
    exact ready id poised

/-- In every run with one-shot timers, those of the servers that wait with an open gate run. -/
theorem ready_of_run {labels : List (ServerId × Event)}
    (execution : Execution.run (step config) labels {} = some final) : final.Ready :=
  Execution.invariant_of_run (fun _ _ _ ready taken => Ready.step ready taken)
    (show Ready {} from fun _ _ => rfl) execution

/-- A run with one-shot timers is one of the cluster. -/
theorem run_nodes {labels : List (ServerId × Event)}
    (execution : Execution.run (step config) labels before = some final) :
    Execution.run (Cluster.step config) labels before.nodes = some final.nodes := by
  induction labels generalizing before with
  | nil =>
      obtain rfl : before = final := Option.some.inj execution
      rfl
  | cons label labels ih =>
      obtain ⟨after, taken, later⟩ := Option.bind_eq_some_iff.mp execution
      rw [Execution.run_cons (step_eq_some.mp taken).2.1]
      exact ih later

/-- A run in which timers fire only at servers that wait with an open gate is one with one-shot
timers. -/
theorem Ready.exists_run (ready : before.Ready) {labels : List (ServerId × Event)}
    {cluster : Cluster}
    (execution : Execution.run (Cluster.timelyStep config) labels before.nodes = some cluster) :
    ∃ final, Execution.run (TimedCluster.step config) labels before = some final ∧
      final.nodes = cluster := by
  induction labels generalizing before with
  | nil => exact ⟨before, rfl, Option.some.inj execution⟩
  | cons label labels ih =>
      obtain ⟨nodes, taken, later⟩ := Option.bind_eq_some_iff.mp execution
      obtain ⟨timely, moved⟩ := Cluster.timelyStep_eq_some.mp taken
      obtain ⟨after, acts, rfl⟩ := exists_step (fun fires => ready label.1 (timely fires)) moved
      obtain ⟨final, goesOn, same⟩ := ih (ready.step acts) later
      exact ⟨final, (Execution.run_cons acts).trans goesOn, same⟩

/-- Also with one-shot timers a leader can be elected from every state that a run which elects
safely comes to. -/
theorem exists_leader (config : ClusterConfig) (nonempty : config.srvList ≠ [])
    {labels : List (ServerId × Event)}
    (execution : Execution.run (step config) labels {} = some before)
    (safe : Execution.Along (Cluster.step config) Cluster.ElectsSafely labels Cluster.init)
    (small : ∀ id ∈ config.srvList, (before.nodes id).server.state.currentTerm +
      (before.nodes id).server.events.length + 1 < termModulus) :
    ∃ labels, ∃ final ∈ Execution.run (step config) labels before, ∃ head ∈ config.srvList,
      (final.nodes head).server.LeadsOwnTerm ∧ ∀ id,
        (final.nodes id).server.state.currentTerm ≤
          (final.nodes head).server.state.currentTerm := by
  have record := Cluster.electionsRecord_of_run nonempty (run_nodes execution) safe
  obtain ⟨labels, cluster, reached, head, listed, leads, greatest⟩ := record.electable small
  obtain ⟨final, goesOn, rfl⟩ := (ready_of_run execution).exists_run reached
  exact ⟨labels, final, goesOn, head, listed, leads, greatest⟩

end TimedCluster

end Quintet
