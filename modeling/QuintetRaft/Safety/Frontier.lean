import QuintetRaft.Safety.ElectionTimeout
import QuintetRaft.Safety.SignalQueue

/-!
# The frontier

In a run that elects safely, the greatest term is that of a server that others can rely on: it does
not miss its election timeout and is not about to step down in this term.  Whoever took office in
the greatest term stays in it.
-/

namespace Quintet

/-- The output carries no greater term. -/
def Output.Within (top : Nat) : Output → Prop
  | .requestVote _ msg => msg.term ≤ top
  | .appendEntries _ msg => msg.term ≤ top
  | .appendReply _ reply => reply.1 ≤ top
  | .voteReply _ _ | .addLogReply _ _ | .candidacy _ | .apply _ => True

theorem Output.Within.mono {top next : Nat} {output : Output} (within : output.Within top)
    (upTo : top ≤ next) : output.Within next := by
  cases output with
  | requestVote | appendEntries | appendReply => exact Nat.le_trans within upTo
  | voteReply | addLogReply | candidacy | apply => trivial

/-- What is delivered carries no greater term. -/
def Event.Within (top : Nat) : Event → Prop
  | .rpcRequestVote msg => msg.term ≤ top
  | .rpcAppendEntries msg => msg.term ≤ top
  | .receiveAppendReply _ _ reply => reply.1 ≤ top
  | _ => True

namespace Server

variable {info : ServerInfo} {srv : Server} {event : Event} {result : Server × List Output}
  {top next : Nat}

/-- A server knows of no greater term. -/
structure Within (top : Nat) (srv : Server) : Prop where
  /-- It is in none. -/
  term : srv.state.currentTerm ≤ top
  /-- Its gate has seen none. -/
  gate : srv.termTriggered ≤ top
  /-- It asks for no votes in one. -/
  requests : ∀ request ∈ srv.candidate.requests,
    invalidTerm < request.2.term ∧ request.2.term ≤ top
  /-- It has not been elected before the first term. -/
  elections : ∀ term, (ServerIdentityNo.leader, term) ∈ srv.events → invalidTerm < term
  /-- It took office in none. -/
  office : srv.leader.initTerm ≤ top

theorem within_init : Within 0 {} :=
  ⟨Nat.le_refl _, Nat.le_refl _, by simp, by simp, Nat.le_refl _⟩

theorem Within.mono (within : srv.Within top) (upTo : top ≤ next) : srv.Within next where
  term := within.term.trans upTo
  gate := within.gate.trans upTo
  requests request member :=
    ⟨(within.requests request member).1, (within.requests request member).2.trans upTo⟩
  elections := within.elections
  office := within.office.trans upTo

/-- Nobody calls `notify` with a greater term. -/
theorem Within.signal_le (within : srv.Within top) (incoming : event.Within top)
    (taken : step info srv event = some result) {request : ServerIdentityNo × Nat}
    (calls : srv.signal info event = some request) : request.2 ≤ top := by
  cases event with
  | rpcRequestVote msg =>
      obtain ⟨-, rfl⟩ := Execution.guarded_eq_some.mp calls
      exact incoming
  | rpcAppendEntries msg =>
      obtain ⟨-, rfl⟩ := Execution.guarded_eq_some.mp calls
      exact within.term
  | timeout =>
      obtain rfl := Option.some.inj calls
      exact within.term
  | receiveVote target msg reply =>
      obtain ⟨-, rfl⟩ := Execution.guarded_eq_some.mp calls
      exact (within.requests (target, msg) (step_receiveVote.mp taken).1).2
  | receiveAppendReply target msg reply =>
      obtain ⟨-, rfl⟩ := Execution.guarded_eq_some.mp calls
      exact incoming
  | _ => cases calls

/-- The answer to an append request is in the term of the server, or in an earlier one. -/
theorem rpcAppendEntries_reply_le (msg : AppendEntriesMessage) :
    (srv.rpcAppendEntries msg).2.1.1 ≤ srv.state.currentTerm := by
  rcases rpcAppendEntries_cases srv msg with ⟨-, -, runs⟩ | ⟨refused, -⟩
  · rw [runs, deferApply, appendEntriesBody_eq]
    dsimp only
    split_ifs <;> simp
  · by_cases serving : srv.Serving
    · have stale : srv.identity = .follower ∧ msg.term < srv.state.currentTerm := by
        by_contra other
        exact refused ⟨serving, fun role => Nat.le_of_not_lt fun lower => other ⟨role, lower⟩⟩
      rw [rpcAppendEntries_of_follower_stale stale.1 stale.2]
    · rw [rpcAppendEntries_of_not_serving serving]
      exact Nat.zero_le _

theorem leave_requests_subset : srv.leave.candidate.requests ⊆ srv.candidate.requests := by
  unfold leave
  split
  · exact List.nil_subset _
  · exact List.Subset.refl _
  · exact List.Subset.refl _

theorem leave_initTerm : srv.leave.leader.initTerm = srv.leader.initTerm := by
  unfold leave
  split <;> rfl

theorem signalled_gate_le {call : Option (ServerIdentityNo × Nat)}
    (upTo : ∀ request ∈ call, request.2 ≤ next) (gate : srv.termTriggered ≤ next) :
    (srv.signalled call).termTriggered ≤ next := by
  rcases call with _ | ⟨target, term⟩
  · exact gate
  · change (srv.notify target term).termTriggered ≤ next
    unfold notify
    split_ifs
    · exact upTo _ rfl
    · exact gate

theorem Within.gate_step (within : srv.Within top) (incoming : event.Within top)
    (taken : Server.step info srv event = some result) (keeps : ¬ srv.LowersTerm event) :
    result.1.termTriggered ≤ max top result.1.state.currentTerm := by
  by_cases moves : event = .transform
  · subst moves
    obtain ⟨target, term, rest, queue, -, rfl⟩ := step_transform.mp taken
    rw [(Prod.mk.inj transform_queue).2, transform_state]
    refine signalled_gate_le (fun request calls => ?_) (within.gate.trans (Nat.le_max_left _ _))
    obtain ⟨⟨rfl, -⟩, rfl⟩ := Execution.guarded_eq_some.mp calls
    exact Nat.le_max_right _ _
  · rw [(Prod.mk.inj (step_queue taken moves keeps)).2]
    refine (signalled_gate_le (fun request calls => ?_) within.gate).trans (Nat.le_max_left _ _)
    exact within.signal_le incoming taken calls

theorem Within.step (within : srv.Within top) (incoming : event.Within top)
    (taken : Server.step info srv event = some result) (keeps : ¬ srv.LowersTerm event)
    (narrow : ¬ srv.WrapsTerm event) (upTo : top ≤ next)
    (term : result.1.state.currentTerm ≤ next) : result.1.Within next where
  term := term
  gate := (within.gate_step incoming taken keeps).trans (Nat.max_le.mpr ⟨upTo, term⟩)
  requests request member := by
    cases event with
    | transform =>
        obtain ⟨target, opened, rest, queue, -, rfl⟩ := step_transform.mp taken
        rw [transform_candidate] at member
        split_ifs at member with stands
        · subst stands
          rcases List.mem_append.mp member with old | new
          · have kept := leave_requests_subset old
            exact (within.mono upTo).requests request kept
          · obtain ⟨target, -, rfl⟩ := List.mem_map.mp new
            rw [transform_state, if_pos rfl] at term
            have opens := incrementTerm_eq narrow (by rw [nextTarget, queue]; rfl)
            refine ⟨?_, term⟩
            change invalidTerm < incrementTerm srv.state.currentTerm
            rw [opens]
            exact Nat.succ_pos _
        · have kept := leave_requests_subset member
          exact (within.mono upTo).requests request kept
    | receiveVote target msg reply =>
        obtain ⟨-, rfl⟩ := step_receiveVote.mp taken
        rw [receiveVote_candidate] at member
        exact (within.mono upTo).requests request (List.mem_of_mem_erase member)
    | _ =>
        rw [(step_sameRole taken trivial).candidate] at member
        exact (within.mono upTo).requests request member
  elections opened member := by
    rcases step_events_leader taken member with
      earlier | ⟨rfl, stands, -, rfl⟩ | ⟨target, msg, rfl, rfl, -⟩
    · exact within.elections opened earlier
    · rw [incrementTerm_eq narrow stands]
      exact Nat.succ_pos _
    · exact (within.requests (target, msg) (step_receiveVote.mp taken).1).1
  office := by
    by_cases moves : event = .transform
    · subst moves
      obtain ⟨target, opened, rest, queue, -, rfl⟩ := step_transform.mp taken
      rw [transform_leader]
      split_ifs with leads
      · subst leads
        rw [transform_state] at term
        simpa [leaderInit] using term
      · rw [leave_initTerm]
        exact within.office.trans upTo
    · rw [(step_office taken moves).1]
      exact within.office.trans upTo

theorem Within.outputs (within : srv.Within top) (taken : Server.step info srv event = some result)
    (upTo : top ≤ next) (term : result.1.state.currentTerm ≤ next) :
    ∀ output ∈ result.2, output.Within next := by
  intro output member
  have emitted := step_emits taken member
  cases output with
  | requestVote target msg =>
      obtain ⟨rfl, stands, -, rfl⟩ := emitted
      rw [step_currentTerm taken, termAfter, if_pos stands] at term
      exact term
  | appendEntries target msg =>
      obtain ⟨-, node, _, _, -, -, created⟩ := emitted
      obtain ⟨_, -, rfl⟩ := Option.map_eq_some_iff.mp created
      exact within.term.trans upTo
  | appendReply msg reply =>
      obtain ⟨-, rfl⟩ := emitted
      exact ((rpcAppendEntries_reply_le msg).trans within.term).trans upTo
  | _ => trivial

/-- Only a candidacy opens a greater term. -/
theorem Within.stands (within : srv.Within top) (incoming : event.Within top)
    (taken : Server.step info srv event = some result)
    (opens : top < result.1.state.currentTerm) :
    event = .transform ∧ result.1.identity = .candidate := by
  have current := within.term
  rw [step_currentTerm taken] at opens
  cases event with
  | rpcRequestVote msg =>
      have upTo : msg.term ≤ top := incoming
      simp only [termAfter] at opens
      split_ifs at opens <;> omega
  | rpcAppendEntries msg =>
      simp only [termAfter] at opens
      split_ifs at opens <;> omega
  | transform =>
      obtain ⟨target, asked, rest, queue, -, rfl⟩ := step_transform.mp taken
      simp only [termAfter] at opens
      split_ifs at opens with stands
      · refine ⟨rfl, ?_⟩
        rw [nextTarget, queue] at stands
        rw [transform_identity]
        exact Option.some.inj stands
      · omega
  | receiveAppendReply target msg reply =>
      have upTo : reply.1 ≤ top := incoming
      simp only [termAfter] at opens
      split_ifs at opens <;> omega
  | _ => exact absurd opens (Nat.not_lt.mpr current)

/-! ## Who stays -/

/-- What `notify` adds to the queue. -/
theorem mem_signalled {call : Option (ServerIdentityNo × Nat)}
    {request : ServerIdentityNo × Nat} (member : request ∈ (srv.signalled call).events) :
    request ∈ srv.events ∨ call = some request := by
  rcases call with _ | ⟨target, term⟩
  · exact .inl member
  · exact (notify_events_subset _ _ _ member).imp_right fun same => congrArg some same.symm

/-- A server in the greatest term that others can rely on. -/
structure Firm (top : Nat) (srv : Server) : Prop where
  /-- It is in the greatest term. -/
  term : srv.state.currentTerm = top
  /-- It does not miss its election timeout. -/
  alert : srv.Alert
  /-- It is not about to step down in this term. -/
  stays : ∀ opened, (ServerIdentityNo.follower, opened) ∈ srv.events → opened < top
  /-- If it leads, it took office in this term. -/
  office : srv.identity = .leader → srv.leader.initTerm = top

theorem firm_init : Firm 0 {} := ⟨rfl, fun _ => .inl rfl, by simp, by simp⟩

/-- An append request of its own term makes a candidate step down. -/
def StepsDown (srv : Server) (event : Event) : Prop :=
  ∃ msg, event = .rpcAppendEntries msg ∧ srv.identity = .candidate ∧
    msg.term = srv.state.currentTerm

/-- Nothing but a message of its own term asks a server in the greatest term to step down. -/
theorem Firm.not_signal (firm : srv.Firm top) (incoming : event.Within top)
    (keeps : ¬ srv.LowersTerm event) (remains : ¬ srv.StepsDown event) (opened : Nat) :
    srv.signal info event ≠ some (.follower, opened) := by
  intro calls
  have term := firm.term
  cases event with
  | rpcRequestVote msg =>
      obtain ⟨⟨serving, -, other⟩, -⟩ := Execution.guarded_eq_some.mp calls
      have upTo : msg.term ≤ top := incoming
      exact keeps (.inl ⟨msg, rfl, serving, by omega⟩)
  | rpcAppendEntries msg =>
      obtain ⟨⟨role, same⟩, -⟩ := Execution.guarded_eq_some.mp calls
      exact remains ⟨msg, rfl, role, same⟩
  | receiveVote target msg reply =>
      obtain ⟨-, same⟩ := Execution.guarded_eq_some.mp calls
      cases same
  | receiveAppendReply target msg reply =>
      obtain ⟨⟨-, greater⟩, -⟩ := Execution.guarded_eq_some.mp calls
      have upTo : reply.1 ≤ top := incoming
      omega
  | _ => cases calls

theorem Firm.step (firm : srv.Firm top) (inLine : srv.InLine) (tidy : srv.Tidy)
    (incoming : event.Within top) (taken : Server.step info srv event = some result)
    (keeps : ¬ srv.LowersTerm event) (remains : ¬ srv.StepsDown event)
    (term : result.1.state.currentTerm = top) : result.1.Firm top where
  term := term
  alert := by
    have current := firm.term
    rw [alert_step_iff tidy firm.alert taken]
    intro closes
    cases event with
    | rpcRequestVote msg =>
        obtain ⟨waits, shut⟩ := closes
        have serving : srv.Serving := waits.1.imp_right .inl
        have upTo : msg.term ≤ top := incoming
        have same : msg.term = srv.state.currentTerm := by
          by_contra other
          exact keeps (.inl ⟨msg, rfl, serving, by omega⟩)
        exact shut (same ▸ firm.alert waits)
    | rpcAppendEntries msg =>
        obtain ⟨-, role, lower, -⟩ := closes
        exact keeps (.inr ⟨msg, rfl, .inl role, lower⟩)
    | transform =>
        obtain ⟨only, ⟨steps, shut⟩ | ⟨stands, -⟩⟩ := closes
        · obtain ⟨⟨target, asked⟩, queue, rfl⟩ := Option.map_eq_some_iff.mp steps
          obtain ⟨rest, same⟩ := List.head?_eq_some_iff.mp queue
          obtain rfl : rest = [] := by rwa [same] at only
          have earlier := firm.stays asked (same ▸ List.mem_singleton_self _)
          have gate : asked = srv.termTriggered :=
            inLine.last (.follower, asked) (by rw [same]; rfl)
          exact shut (.inr (by omega))
        · rw [step_currentTerm taken, termAfter, if_pos stands, incrementTerm, termModulus] at term
          omega
    | _ => exact closes
  stays opened member := by
    by_cases moves : event = .transform
    · subst moves
      obtain ⟨target, asked, rest, queue, -, rfl⟩ := step_transform.mp taken
      rcases transform_events member with earlier | ⟨-, -, same⟩
      · exact firm.stays opened (queue ▸ List.mem_cons_of_mem _ earlier)
      · cases same
    · rw [(Prod.mk.inj (step_queue taken moves keeps)).1] at member
      exact firm.stays opened
        ((mem_signalled member).resolve_right (firm.not_signal incoming keeps remains opened))
  office leads := by
    by_cases moves : event = .transform
    · subst moves
      obtain ⟨target, asked, rest, queue, -, rfl⟩ := step_transform.mp taken
      obtain rfl : target = .leader := by rwa [transform_identity] at leads
      rw [transform_leader, if_pos rfl]
      simpa [leaderInit] using firm.term
    · rw [(step_office taken moves).1]
      exact firm.office ((step_identity taken moves).symm.trans leads)

/-- A candidacy that opens a greater term. -/
theorem Within.firm_candidacy (within : srv.Within top) (inLine : srv.InLine)
    (taken : Server.step info srv .transform = some result)
    (opens : top < result.1.state.currentTerm) : result.1.Firm result.1.state.currentTerm where
  term := rfl
  alert := by
    have current := within.term
    have gate := within.gate
    obtain ⟨target, asked, rest, queue, -, rfl⟩ := step_transform.mp taken
    rw [transform_state] at opens
    rw [transform_alert_iff]
    intro
    by_cases stands : target = .candidate
    · rw [if_pos stands] at opens
      refine ⟨fun steps => ?_, fun _ => .inr (gate.trans_lt opens)⟩
      simp [stands] at steps
    · rw [if_neg stands] at opens
      exact absurd opens (Nat.not_lt.mpr current)
  stays opened member := by
    have gate := within.gate
    obtain ⟨target, asked, rest, queue, -, rfl⟩ := step_transform.mp taken
    rcases transform_events member with earlier | ⟨-, -, same⟩
    · have upTo := inLine.upTo (.follower, opened) (queue ▸ List.mem_cons_of_mem _ earlier)
      exact (upTo.trans gate).trans_lt opens
    · cases same
  office leads := by
    obtain ⟨target, asked, rest, queue, -, rfl⟩ := step_transform.mp taken
    have current := within.term
    obtain rfl : target = .leader := by rwa [transform_identity] at leads
    rw [transform_state, if_neg (by simp)] at opens
    exact absurd opens (Nat.not_lt.mpr current)

/-- A leader that took office in the greatest term. -/
structure Reigns (top : Nat) (srv : Server) : Prop where
  /-- Nothing is in its queue. -/
  idle : srv.events = []
  /-- Its gate is closed in the greatest term. -/
  gate : srv.termTriggered = top
  /-- It is in this term. -/
  term : srv.state.currentTerm = top
  /-- There has been an election. -/
  opened : invalidTerm < top

theorem Reigns.firm (reigns : srv.Reigns top) (role : srv.identity = .leader)
    (recent : srv.leader.initTerm = top) : srv.Firm top :=
  ⟨reigns.term, alert_of_leader role, by simp [reigns.idle], fun _ => recent⟩

theorem Reigns.step (reigns : srv.Reigns top) (within : srv.Within top)
    (incoming : event.Within top) (taken : Server.step info srv event = some result)
    (keeps : ¬ srv.LowersTerm event) (term : result.1.state.currentTerm = top) :
    event ≠ .transform ∧ result.1.Reigns top := by
  have kept : event ≠ .transform := by
    rintro rfl
    obtain ⟨target, asked, rest, queue, -, -⟩ := step_transform.mp taken
    rw [reigns.idle] at queue
    cases queue
  -- whoever calls `notify` finds the gate closed
  have still : result.1.queue = srv.queue := by
    rw [step_queue taken kept keeps]
    cases calls : srv.signal info event with
    | none => rfl
    | some request =>
        have upTo := within.signal_le incoming taken calls
        have opened := reigns.opened
        change (srv.notify request.1 request.2).queue = _
        rw [notify_queue, if_neg]
        rw [accepts, reigns.gate]
        omega
  obtain ⟨events, gate⟩ := Prod.mk.inj still
  exact ⟨kept, events.trans reigns.idle, gate.trans reigns.gate, term, reigns.opened⟩

/-- Whoever takes office in the greatest term reigns. -/
theorem Within.reigns_office (within : srv.Within top) (inLine : srv.InLine)
    (taken : Server.step info srv .transform = some result)
    (won : ¬ srv.TakesOtherTerm .transform) (leads : result.1.identity = .leader)
    (recent : result.1.leader.initTerm = top) : result.1.Reigns top := by
  obtain ⟨target, asked, rest, queue, -, rfl⟩ := step_transform.mp taken
  obtain rfl : target = .leader := by rwa [transform_identity] at leads
  have current : srv.state.currentTerm = top := by
    rw [transform_leader, if_pos rfl] at recent
    simpa [leaderInit] using recent
  have same : asked = top := by
    by_contra other
    exact won ⟨rfl, (.leader, asked), by rw [queue]; rfl, rfl, current ▸ other⟩
  subst same
  have opened := within.elections asked (queue ▸ List.mem_cons_self)
  have ordered := inLine.ordered
  rw [queue, List.pairwise_cons] at ordered
  have upTo : asked ≤ srv.termTriggered := inLine.upTo (.leader, asked) (queue ▸ List.mem_cons_self)
  obtain rfl : rest = [] := by
    refine List.eq_nil_iff_forall_not_mem.mpr fun later member => ?_
    have greater := ordered.1 later member
    have bounded := inLine.upTo later (queue ▸ List.mem_cons_of_mem _ member)
    have gate := within.gate
    unfold invalidTerm at greater opened
    dsimp only at greater
    omega
  refine ⟨?_, ?_, ?_, opened⟩
  · exact (Prod.mk.inj transform_queue).1
  · refine (Prod.mk.inj transform_queue).2.trans ?_
    exact Nat.le_antisymm within.gate upTo
  · rw [transform_state]
    exact current

end Server

namespace Cluster

variable {config : ClusterConfig} {before after cluster : Cluster} {label : ServerId × Event}
  {top : Nat}

/-- Nobody knows of a term greater than this one, and whoever took office in it reigns. -/
structure Frontier (config : ClusterConfig) (cluster : Cluster) (top : Nat) : Prop where
  /-- Leaders have been elected. -/
  sender : SenderRecord config cluster
  /-- The queues are in order. -/
  inLine : ∀ id, (cluster id).server.InLine
  /-- No server knows of a greater term. -/
  within : ∀ id, (cluster id).server.Within top
  /-- None has sent one. -/
  sent : ∀ id, ∀ output ∈ (cluster id).sent, output.Within top
  /-- Leaders of this term reign. -/
  offices : ∀ id, (cluster id).server.identity = .leader →
    (cluster id).server.leader.initTerm = top → (cluster id).server.Reigns top
  /-- Its messages come from such a leader. -/
  appended : ∀ id target msg, .appendEntries target msg ∈ (cluster id).sent → msg.term = top →
    (cluster id).server.identity = .leader ∧ (cluster id).server.leader.initTerm = top

theorem frontier_init (config : ClusterConfig) : Frontier config init 0 where
  sender := senderRecord_init
  inLine _ := Server.inLine_init
  within _ := Server.within_init
  sent := by simp [init]
  offices := by simp [init]
  appended := by simp [init]

/-- What is delivered has been sent. -/
theorem Frontier.incoming (frontier : Frontier config cluster top) {self : ServerId}
    {event : Event} (delivered : cluster.Delivered self event) : event.Within top := by
  cases event with
  | rpcRequestVote msg => exact frontier.sent _ _ delivered
  | rpcAppendEntries msg => exact frontier.sent _ _ delivered
  | receiveAppendReply target msg reply => exact frontier.sent _ _ delivered
  | _ => trivial

/-- What holds of the other nodes, and of the acting one, holds of all. -/
theorem forall_acted (taken : Cluster.step config before label = some after)
    {result : Server × List Output}
    (moved : (before label.1).server.step (config.info label.1) label.2 = some result)
    (property : ServerId → Node → Prop) (others : ∀ id, id ≠ label.1 → property id (before id))
    (acting : property label.1
      { server := result.1, sent := (before label.1).sent ++ result.2 }) (id : ServerId) :
    property id (after id) :=
  forall_step taken property others
    (fun _ _ moved' => Option.some.inj (moved.symm.trans moved') ▸ acting) id

/-- A new term is nobody's term of office. -/
theorem Frontier.step_of_opens (frontier : Frontier config before top)
    (taken : Cluster.step config before label = some after)
    (safe : ElectsSafely before label after) {result : Server × List Output}
    (moved : (before label.1).server.step (config.info label.1) label.2 = some result)
    (incoming : label.2.Within top) (opens : top < result.1.state.currentTerm) :
    Frontier config after result.1.state.currentTerm := by
  have within := frontier.within label.1
  obtain ⟨stands, role⟩ := within.stands incoming moved opens
  refine
    { sender := frontier.sender.step taken safe
      inLine := forall_acted taken moved (fun _ node => node.server.InLine)
        (fun id _ => frontier.inLine id)
        ((frontier.inLine label.1).step moved safe.1.1)
      within := forall_acted taken moved (fun _ node => node.server.Within _)
        (fun id _ => (frontier.within id).mono opens.le)
        (within.step incoming moved safe.1.1 safe.1.2 opens.le (Nat.le_refl _))
      sent := forall_acted taken moved (fun _ node => ∀ output ∈ node.sent, output.Within _)
        (fun id _ output member => (frontier.sent id output member).mono opens.le)
        (List.forall_mem_append.mpr ⟨fun output member =>
          (frontier.sent label.1 output member).mono opens.le,
          within.outputs moved opens.le (Nat.le_refl _)⟩)
      offices := forall_acted taken moved
        (fun _ node => node.server.identity = .leader →
          node.server.leader.initTerm = result.1.state.currentTerm → node.server.Reigns _)
        (fun id _ _ recent => absurd (frontier.within id).office (by omega))
        fun leads => by simp [role] at leads
      appended := fun id target msg member recent => ?_ }
  rcases sent_cases taken member with earlier | ⟨rfl, -, result', moved', built⟩
  · have old : msg.term ≤ top := frontier.sent id _ earlier
    omega
  · obtain ⟨sends, -⟩ := Server.step_emits moved' built
    rw [stands] at sends
    cases sends

/-- As long as the greatest term stays, those who lead in it do. -/
theorem Frontier.step_of_kept (frontier : Frontier config before top)
    (taken : Cluster.step config before label = some after)
    (safe : ElectsSafely before label after) {result : Server × List Output}
    (moved : (before label.1).server.step (config.info label.1) label.2 = some result)
    (incoming : label.2.Within top) (kept : result.1.state.currentTerm ≤ top) :
    Frontier config after top := by
  have within := frontier.within label.1
  have rising := Server.step_currentTerm_le moved safe.1.1 safe.1.2
  -- whoever reigns goes on
  have goesOn : (before label.1).server.identity = .leader →
      (before label.1).server.leader.initTerm = top →
      result.1.identity = .leader ∧ result.1.leader.initTerm = top ∧ result.1.Reigns top := by
    intro leads recent
    have reigns := frontier.offices label.1 leads recent
    have term : result.1.state.currentTerm = top := by
      have current := reigns.term
      omega
    obtain ⟨still, reigns⟩ := reigns.step within incoming moved safe.1.1 term
    exact ⟨(Server.step_identity moved still).trans leads,
      (Server.step_office moved still).1.trans recent, reigns⟩
  exact
    { sender := frontier.sender.step taken safe
      inLine := forall_acted taken moved (fun _ node => node.server.InLine)
        (fun id _ => frontier.inLine id)
        ((frontier.inLine label.1).step moved safe.1.1)
      within := forall_acted taken moved (fun _ node => node.server.Within top)
        (fun id _ => frontier.within id)
        (within.step incoming moved safe.1.1 safe.1.2 (Nat.le_refl _) kept)
      sent := forall_acted taken moved (fun _ node => ∀ output ∈ node.sent, output.Within top)
        (fun id _ => frontier.sent id)
        (List.forall_mem_append.mpr ⟨frontier.sent label.1,
          within.outputs moved (Nat.le_refl _) kept⟩)
      offices := forall_acted taken moved
        (fun _ node => node.server.identity = .leader →
          node.server.leader.initTerm = top → node.server.Reigns top)
        (fun id _ => frontier.offices id) fun leads recent => by
          by_cases moves : label.2 = .transform
          · rw [moves] at moved
            exact within.reigns_office (frontier.inLine label.1) moved (moves ▸ safe.2.1) leads
              recent
          · refine (goesOn ?_ ?_).2.2
            · exact (Server.step_identity moved moves).symm.trans leads
            · exact (Server.step_office moved moves).1.symm.trans recent
      appended := forall_acted taken moved
        (fun _ node => ∀ target msg, .appendEntries target msg ∈ node.sent → msg.term = top →
          node.server.identity = .leader ∧ node.server.leader.initTerm = top)
        (fun id _ => frontier.appended id) fun target msg member recent => by
          have leads : (before label.1).server.identity = .leader ∧
              (before label.1).server.leader.initTerm = top := by
            rcases List.mem_append.mp member with earlier | built
            · exact frontier.appended label.1 target msg earlier recent
            · obtain ⟨sends, node, _, _, known, -, created⟩ := Server.step_emits moved built
              obtain ⟨_, -, rfl⟩ := Option.map_eq_some_iff.mp created
              refine ⟨(frontier.sender.tidy label.1).role_of_known known, ?_⟩
              have current : (before label.1).server.state.currentTerm = top := recent
              by_contra other
              exact safe.2.2 ⟨by simp [sends, Event.sending], current ▸ other⟩
          obtain ⟨role, office, -⟩ := goesOn leads.1 leads.2
          exact ⟨role, office⟩ }

theorem Frontier.step (frontier : Frontier config before top)
    (taken : Cluster.step config before label = some after)
    (safe : ElectsSafely before label after) :
    Frontier config after (max top (after label.1).server.state.currentTerm) := by
  obtain ⟨-, delivered, result, moved, same⟩ := step_eq_some.mp taken
  have incoming := frontier.incoming delivered
  have acting : (after label.1).server = result.1 := by rw [same, Function.update_self]
  rw [acting]
  rcases Nat.lt_or_ge top result.1.state.currentTerm with opens | kept
  · rw [Nat.max_eq_right opens.le]
    exact frontier.step_of_opens taken safe moved incoming opens
  · rw [Nat.max_eq_left kept]
    exact frontier.step_of_kept taken safe moved incoming kept

/-- There is a server in the greatest term that others can rely on. -/
theorem Frontier.firm_step (frontier : Frontier config before top)
    (taken : Cluster.step config before label = some after)
    (safe : ElectsSafely before label after)
    (firm : ∃ head ∈ config.srvList, (before head).server.Firm top) :
    ∃ head ∈ config.srvList,
      (after head).server.Firm (max top (after label.1).server.state.currentTerm) := by
  obtain ⟨listed, delivered, result, moved, same⟩ := step_eq_some.mp taken
  have incoming := frontier.incoming delivered
  have acting : (after label.1).server = result.1 := by rw [same, Function.update_self]
  have others : ∀ id, id ≠ label.1 → after id = before id := fun id other => by
    rw [same, Function.update_of_ne other]
  rcases Nat.lt_or_ge top result.1.state.currentTerm with opens | kept
  · -- a candidacy has opened a greater term
    obtain ⟨stands, -⟩ := (frontier.within label.1).stands incoming moved opens
    rw [stands] at moved
    refine ⟨label.1, listed, ?_⟩
    rw [acting, Nat.max_eq_right opens.le]
    exact (frontier.within label.1).firm_candidacy (frontier.inLine label.1) moved opens
  · obtain ⟨head, member, firm⟩ := firm
    rw [acting, Nat.max_eq_left kept]
    by_cases acts : head = label.1
    · subst acts
      have current := firm.term
      by_cases remains : (before label.1).server.StepsDown label.2
      · -- the leader it hears from takes its place
        obtain ⟨msg, event, role, term⟩ := remains
        rw [event] at delivered
        have sent : Output.appendEntries label.1 msg ∈ (before msg.leaderId).sent := delivered
        obtain ⟨leads, recent⟩ := frontier.appended msg.leaderId label.1 msg sent (by omega)
        have other : msg.leaderId ≠ label.1 := by
          intro own
          rw [own, role] at leads
          cases leads
        refine ⟨msg.leaderId, ?_, ?_⟩
        · by_contra unlisted
          rw [frontier.sender.outside _ unlisted] at sent
          cases sent
        · rw [others _ other]
          exact (frontier.offices _ leads recent).firm leads recent
      · refine ⟨label.1, member, ?_⟩
        rw [acting]
        have rising := Server.step_currentTerm_le moved safe.1.1 safe.1.2
        exact firm.step (frontier.inLine _) (frontier.sender.tidy _) incoming moved safe.1.1
          remains (by omega)
    · refine ⟨head, member, ?_⟩
      rw [others _ acts]
      exact firm

end Cluster

end Quintet
