import QuintetRaft.Safety.Frontier

/-!
# Elections go on

The gate of a server may stay closed, so that it waits for others to start an election.  In a run
that elects safely it does not wait in vain: some server comes to lead in the greatest term, or to
stand in a greater one, with nothing but its own timer and its own transformer.
-/

namespace Quintet

namespace Server

variable {info : ServerInfo} {srv : Server} {event : Event} {result : Server × List Output}
  {top : Nat}

/-- A server of one of the three identities, about to change to no other. -/
structure Staffed (srv : Server) : Prop where
  /-- It is a follower, a candidate or a leader. -/
  role : srv.identity.Regular
  /-- It has been asked to become one of them. -/
  requests : ∀ request ∈ srv.events, request.1.Regular

theorem staffed_init : Staffed {} := ⟨.inl rfl, by simp⟩

theorem Staffed.step (staffed : srv.Staffed) (taken : Server.step info srv event = some result) :
    result.1.Staffed where
  role := by
    by_cases moves : event = .transform
    · subst moves
      obtain ⟨target, term, rest, queue, -, rfl⟩ := step_transform.mp taken
      rw [transform_identity]
      exact staffed.requests (target, term) (queue ▸ List.mem_cons_self)
    · rw [step_identity taken moves]
      exact staffed.role
  requests request member := by
    by_cases moves : event = .transform
    · subst moves
      obtain ⟨target, term, rest, queue, -, rfl⟩ := step_transform.mp taken
      rcases transform_events member with earlier | ⟨-, -, rfl⟩
      · exact staffed.requests request (queue ▸ List.mem_cons_of_mem _ earlier)
      · exact .inr (.inr rfl)
    · by_cases fires : event = .timeout
      · subst fires
        obtain ⟨-, rfl⟩ := step_timeout.mp taken
        rcases notify_events_subset _ _ _ member with earlier | rfl
        · exact staffed.requests request earlier
        · exact .inr (.inl rfl)
      · exact (step_asks taken ⟨fires, moves⟩ request member).elim (staffed.requests request) id

/-- The server leads, in the term it took office in. -/
def LeadsOwnTerm (srv : Server) : Prop :=
  srv.identity = .leader ∧ srv.leader.initTerm = srv.state.currentTerm

theorem leadsOwnTerm_transform : (srv.transform info .leader).1.LeadsOwnTerm := by
  refine ⟨transform_identity, ?_⟩
  rw [transform_leader, if_pos rfl, transform_state, if_neg (by simp)]
  simp [leaderInit]

theorem Firm.leadsOwnTerm (firm : srv.Firm top) (leads : srv.identity = .leader) :
    srv.LeadsOwnTerm :=
  ⟨leads, (firm.office leads).trans firm.term.symm⟩

/-- A server in the greatest term that can go on alone. -/
structure Ready (top : Nat) (srv : Server) : Prop where
  /-- Others can rely on it. -/
  firm : srv.Firm top
  /-- Its queue is in order. -/
  inLine : srv.InLine
  /-- Its gate has seen no greater term. -/
  gate : srv.termTriggered ≤ top
  /-- Private data belongs to the current identity. -/
  tidy : srv.Tidy
  /-- It serves. -/
  staffed : srv.Staffed

/-- Its own timer and its own transformer leave it ready as long as they leave it in its term. -/
theorem Ready.step (ready : srv.Ready top) (alone : event = .timeout ∨ event = .transform)
    (taken : Server.step info srv event = some result)
    (term : result.1.state.currentTerm = top) : result.1.Ready top := by
  have incoming : event.Within top := by rcases alone with rfl | rfl <;> trivial
  have keeps : ¬ srv.LowersTerm event := by
    rcases alone with rfl | rfl <;> simp [LowersTerm, Event.voteRequest, Event.appendRequest]
  have remains : ¬ srv.StepsDown event := by
    rintro ⟨msg, rfl, -⟩
    simp at alone
  have gate : result.1.termTriggered ≤ top := by
    rcases alone with rfl | rfl
    · rw [(Prod.mk.inj (step_queue taken (by simp) keeps)).2]
      refine signalled_gate_le (fun request calls => ?_) ready.gate
      obtain rfl := Option.some.inj calls
      exact ready.firm.term.le
    · obtain ⟨target, asked, rest, queue, -, rfl⟩ := step_transform.mp taken
      rw [(Prod.mk.inj transform_queue).2]
      refine signalled_gate_le (fun request calls => ?_) ready.gate
      obtain ⟨⟨rfl, -⟩, rfl⟩ := Execution.guarded_eq_some.mp calls
      rw [transform_state, if_pos rfl] at term
      exact term.le
  exact ⟨ready.firm.step ready.inLine ready.tidy incoming taken keeps remains term,
    ready.inLine.step taken keeps, gate, ready.tidy.step taken, ready.staffed.step taken⟩

/-- With nothing queued it waits with an open gate, unless it leads. -/
theorem Ready.poised (ready : srv.Ready top) (queue : srv.events = [])
    (role : srv.identity ≠ .leader) : srv.Poised := by
  have waiting : srv.Waiting :=
    ⟨ready.staffed.role.imp_right fun serves => serves.resolve_right role, queue⟩
  exact ⟨waiting, ready.firm.alert waiting⟩

/-- With nothing queued it answers its election timeout, unless it leads. -/
theorem Ready.answers (ready : srv.Ready top) (info : ServerInfo) (queue : srv.events = [])
    (role : srv.identity ≠ .leader) :
    ∃ result, Server.step info srv .timeout = some result ∧
      result.1.events = [(.candidate, top)] ∧ result.1.identity = srv.identity ∧
        result.1.Ready top := by
  obtain ⟨waiting, opens⟩ := ready.poised queue role
  have taken : Server.step info srv .timeout =
      some (srv.notify .candidate srv.state.currentTerm, []) :=
    step_timeout.mpr ⟨waiting.1, rfl⟩
  refine ⟨_, taken, ?_, notify_identity .., ready.step (.inl rfl) taken ?_⟩
  · rw [notify_events, if_pos opens, queue, ready.firm.term]
    rfl
  · rw [notify_state]
    exact ready.firm.term

end Server

namespace Cluster

variable {config : ClusterConfig} {before after cluster : Cluster} {label : ServerId × Event}
  {top : Nat}

/-- One step in which an election timer fires only at a server that waits with an open gate, where
it is sure to run although it fires but once. -/
def timelyStep (config : ClusterConfig) (cluster : Cluster) (label : ServerId × Event) :
    Option Cluster :=
  if label.2 = .timeout → (cluster label.1).server.Poised then step config cluster label else none

theorem timelyStep_eq_some :
    timelyStep config before label = some after ↔
      (label.2 = .timeout → (before label.1).server.Poised) ∧
        step config before label = some after := by
  rw [timelyStep, Option.ite_none_right_eq_some]

/-- A run in which nothing but the timer and the transformer of one server acts. -/
def AloneTo (config : ClusterConfig) (head : ServerId) (cluster final : Cluster) : Prop :=
  ∃ events : List Event, (∀ event ∈ events, event = .timeout ∨ event = .transform) ∧
    Execution.run (timelyStep config) (events.map fun event => (head, event)) cluster = some final

/-- By nothing but its own timer and its own transformer the server comes to lead in the greatest
term, or to stand in a greater one. -/
def CarriesOn (config : ClusterConfig) (cluster : Cluster) (head : ServerId) : Prop :=
  ∃ final, AloneTo config head cluster final ∧
    ((final head).server.LeadsOwnTerm ∧
        (∀ id, (cluster id).server.state.currentTerm ≤ (final head).server.state.currentTerm) ∨
      (final head).server.identity = .candidate ∧
        ∀ id, (cluster id).server.state.currentTerm < (final head).server.state.currentTerm)

/-- A server takes a step that it can take. -/
theorem exists_step {self : ServerId} (listed : self ∈ config.srvList) {event : Event}
    (delivered : cluster.Delivered self event)
    (timely : event = .timeout → (cluster self).server.Poised) {result : Server × List Output}
    (moved : (cluster self).server.step (config.info self) event = some result) :
    ∃ after, timelyStep config cluster (self, event) = some after ∧
      (∀ id, id ≠ self → after id = cluster id) ∧
      after self = { server := result.1, sent := (cluster self).sent ++ result.2 } :=
  ⟨_, timelyStep_eq_some.mpr ⟨timely, step_eq_some.mpr ⟨listed, delivered, result, moved, rfl⟩⟩,
    fun _ other => Function.update_of_ne other _ _, Function.update_self ..⟩

/-- Nothing has to be delivered to its timer and its transformer. -/
theorem exists_step_alone {head : ServerId} (listed : head ∈ config.srvList) {event : Event}
    (alone : event = .timeout ∧ (cluster head).server.Poised ∨ event = .transform)
    {result : Server × List Output}
    (moved : (cluster head).server.step (config.info head) event = some result) :
    ∃ after, timelyStep config cluster (head, event) = some after ∧
      (after head).server = result.1 := by
  have delivered : cluster.Delivered head event := by
    rcases alone with ⟨rfl, -⟩ | rfl <;> trivial
  have timely : event = .timeout → (cluster head).server.Poised := by
    rcases alone with ⟨-, poised⟩ | rfl
    · exact fun _ => poised
    · simp
  obtain ⟨after, taken, -, acting⟩ := exists_step listed delivered timely moved
  exact ⟨after, taken, by rw [acting]⟩

/-- The transformation at the head of its queue. -/
theorem exists_transform {head : ServerId} (listed : head ∈ config.srvList)
    (role : (cluster head).server.identity ≠ .leader) {target : ServerIdentityNo} {term : Nat}
    {rest : List (ServerIdentityNo × Nat)}
    (queue : (cluster head).server.events = (target, term) :: rest) :
    ∃ after result, timelyStep config cluster (head, .transform) = some after ∧
      (cluster head).server.step (config.info head) .transform = some result ∧
      result = { (cluster head).server with events := rest }.transform (config.info head) target ∧
      (after head).server = result.1 := by
  have moved : (cluster head).server.step (config.info head) .transform =
      some ({ (cluster head).server with events := rest }.transform (config.info head) target) :=
    Server.step_transform.mpr
      ⟨target, term, rest, queue, fun leads => absurd leads role, rfl⟩
  obtain ⟨after, taken, acting⟩ := exists_step_alone listed (.inr rfl) moved
  exact ⟨after, _, taken, moved, rfl, acting⟩

/-- A candidacy that waits opens a greater term. -/
theorem exists_candidacy {head : ServerId} (listed : head ∈ config.srvList)
    (role : (cluster head).server.identity ≠ .leader) {term : Nat}
    {rest : List (ServerIdentityNo × Nat)}
    (queue : (cluster head).server.events = (.candidate, term) :: rest)
    (small : (cluster head).server.state.currentTerm + 1 < termModulus) :
    ∃ after, timelyStep config cluster (head, .transform) = some after ∧
      (after head).server.identity = .candidate ∧
      (after head).server.state.currentTerm = (cluster head).server.state.currentTerm + 1 := by
  obtain ⟨after, result, taken, -, rfl, acting⟩ := exists_transform listed role queue
  refine ⟨after, taken, ?_, ?_⟩
  · rw [acting, Server.transform_identity]
  · rw [acting, Server.transform_state, if_pos rfl]
    exact Nat.mod_eq_of_lt small

theorem AloneTo.refl (config : ClusterConfig) (head : ServerId) (cluster : Cluster) :
    AloneTo config head cluster cluster :=
  ⟨[], by simp, rfl⟩

theorem AloneTo.head {head : ServerId} {event : Event}
    (alone : event = .timeout ∨ event = .transform)
    (taken : timelyStep config before (head, event) = some after) {final : Cluster}
    (goesOn : AloneTo config head after final) : AloneTo config head before final := by
  obtain ⟨events, others, execution⟩ := goesOn
  refine ⟨event :: events, List.forall_mem_cons.mpr ⟨alone, others⟩, ?_⟩
  rw [List.map_cons, Execution.run_cons taken]
  exact execution

theorem AloneTo.concat {head : ServerId} {event : Event}
    (goesOn : AloneTo config head cluster before)
    (alone : event = .timeout ∨ event = .transform)
    (taken : timelyStep config before (head, event) = some after) :
    AloneTo config head cluster after := by
  obtain ⟨events, others, execution⟩ := goesOn
  refine ⟨events ++ [event], List.forall_mem_append.mpr ⟨others, by simpa using alone⟩, ?_⟩
  rw [List.map_append, Execution.run_append, execution]
  exact Execution.run_cons taken

/-- A server that can go on alone comes to lead, or is about to stand in the next term. -/
theorem exists_standing {head : ServerId} (listed : head ∈ config.srvList)
    {queue : List (ServerIdentityNo × Nat)} (same : (cluster head).server.events = queue)
    (ready : (cluster head).server.Ready top) :
    ∃ final, AloneTo config head cluster final ∧
      ((final head).server.LeadsOwnTerm ∧ top ≤ (final head).server.state.currentTerm ∨
        (final head).server.identity ≠ .leader ∧ (final head).server.Ready top ∧
          ∃ term rest, (final head).server.events = (.candidate, term) :: rest ∧
            rest.length ≤ queue.length) := by
  have current := ready.firm.term
  induction queue generalizing cluster with
  | nil =>
      by_cases leads : (cluster head).server.identity = .leader
      · exact ⟨cluster, .refl config head cluster, .inl ⟨ready.firm.leadsOwnTerm leads, current.ge⟩⟩
      obtain ⟨result, moved, asked, role, later⟩ := ready.answers (config.info head) same leads
      obtain ⟨after, taken, acting⟩ :=
        exists_step_alone listed (.inl ⟨rfl, ready.poised same leads⟩) moved
      rw [← acting] at asked role later
      exact ⟨after, .head (.inl rfl) taken (.refl config head after),
        .inr ⟨role ▸ leads, later, top, [], asked, Nat.le_refl 0⟩⟩
  | cons request rest ih =>
      by_cases leads : (cluster head).server.identity = .leader
      · exact ⟨cluster, .refl config head cluster, .inl ⟨ready.firm.leadsOwnTerm leads, current.ge⟩⟩
      obtain ⟨target, term⟩ := request
      rcases ready.staffed.requests (target, term) (same ▸ List.mem_cons_self) with
        steps | stands | elected
      · -- it steps down, and goes on from there
        obtain rfl : target = .follower := steps
        obtain ⟨after, result, taken, moved, rfl, acting⟩ := exists_transform listed leads same
        have unchanged : (after head).server.state.currentTerm = top := by
          rw [acting, Server.transform_state, if_neg (by simp)]
          exact current
        have shorter : (after head).server.events = rest := by
          rw [acting]
          exact (Prod.mk.inj Server.transform_queue).1
        obtain ⟨final, alone, outcome⟩ := ih shorter
          (acting ▸ ready.step (.inr rfl) moved (acting ▸ unchanged)) unchanged
        refine ⟨final, .head (.inr rfl) taken alone, outcome.imp_right ?_⟩
        rintro ⟨role, later, term, behind, queue, short⟩
        exact ⟨role, later, term, behind, queue, short.trans (Nat.le_succ _)⟩
      · obtain rfl : target = .candidate := stands
        exact ⟨cluster, .refl config head cluster,
          .inr ⟨leads, ready, term, rest, same, Nat.le_succ _⟩⟩
      · obtain rfl : target = .leader := elected
        obtain ⟨final, result, taken, -, rfl, acting⟩ := exists_transform listed leads same
        refine ⟨final, .head (.inr rfl) taken (.refl config head final), .inl ⟨?_, ?_⟩⟩
        · rw [acting]
          exact Server.leadsOwnTerm_transform
        · rw [acting, Server.transform_state, if_neg (by simp)]
          exact current.ge

/-- What holds along every run that elects safely. -/
structure ElectionsRecord (config : ClusterConfig) (cluster : Cluster) : Prop where
  /-- Every server serves. -/
  staffed : ∀ id, (cluster id).server.Staffed
  /-- Some server in the greatest term can be relied on. -/
  head : ∃ top, Frontier config cluster top ∧
    ∃ head ∈ config.srvList, (cluster head).server.Firm top

theorem electionsRecord_init {head : ServerId} (listed : head ∈ config.srvList) :
    ElectionsRecord config init where
  staffed _ := Server.staffed_init
  head := ⟨0, frontier_init config, head, listed, Server.firm_init⟩

theorem ElectionsRecord.step (record : ElectionsRecord config before)
    (taken : Cluster.step config before label = some after)
    (safe : ElectsSafely before label after) : ElectionsRecord config after where
  staffed := forall_step taken (fun _ node => node.server.Staffed) (fun id _ => record.staffed id)
    fun _ _ moved => (record.staffed label.1).step moved
  head := by
    obtain ⟨top, frontier, firm⟩ := record.head
    exact ⟨_, frontier.step taken safe, frontier.firm_step taken safe firm⟩

theorem ElectionsRecord.ready (record : ElectionsRecord config cluster)
    (frontier : Frontier config cluster top) {head : ServerId}
    (firm : (cluster head).server.Firm top) : (cluster head).server.Ready top :=
  ⟨firm, frontier.inLine head, (frontier.within head).gate, frontier.sender.tidy head,
    record.staffed head⟩

theorem ElectionsRecord.carriesOn (record : ElectionsRecord config cluster)
    (small : ∀ id ∈ config.srvList, (cluster id).server.state.currentTerm + 1 < termModulus) :
    ∃ head ∈ config.srvList, CarriesOn config cluster head := by
  obtain ⟨top, frontier, head, listed, firm⟩ := record.head
  have greatest : ∀ id, (cluster id).server.state.currentTerm ≤ top :=
    fun id => (frontier.within id).term
  obtain ⟨standing, alone, outcome⟩ := exists_standing listed rfl (record.ready frontier firm)
  rcases outcome with ⟨leads, upTo⟩ | ⟨role, later, term, rest, queue, -⟩
  · exact ⟨head, listed, standing, alone, .inl ⟨leads, fun id => (greatest id).trans upTo⟩⟩
  · have current := later.firm.term
    have bounded : (standing head).server.state.currentTerm + 1 < termModulus := by
      rw [current, ← firm.term]
      exact small head listed
    obtain ⟨final, taken, stands, opens⟩ := exists_candidacy listed role queue bounded
    refine ⟨head, listed, final, alone.concat (.inr rfl) taken, .inr ⟨stands, fun id => ?_⟩⟩
    have upTo := greatest id
    omega

theorem electionsRecord_of_run (nonempty : config.srvList ≠ [])
    {labels : List (ServerId × Event)}
    (execution : Execution.run (Cluster.step config) labels init = some cluster)
    (safe : Execution.Along (Cluster.step config) ElectsSafely labels init) :
    ElectionsRecord config cluster := by
  obtain ⟨first, listed⟩ := List.exists_mem_of_ne_nil _ nonempty
  exact Execution.invariant_of_along (fun _ _ _ record taken safe => record.step taken safe)
    (electionsRecord_init listed) safe execution

/-- Elections never come to a halt: wherever a run that elects safely has come to, some server gets
on with nothing but its own timer, although those of others may be ignored. -/
theorem electionsGoOn_of_electsSafely (config : ClusterConfig) (nonempty : config.srvList ≠ [])
    {labels : List (ServerId × Event)} {final : Cluster}
    (execution : Execution.run (step config) labels init = some final)
    (safe : Execution.Along (step config) ElectsSafely labels init)
    (small : ∀ id ∈ config.srvList, (final id).server.state.currentTerm + 1 < termModulus) :
    ∃ head ∈ config.srvList, CarriesOn config final head :=
  (electionsRecord_of_run nonempty execution safe).carriesOn small

/-- The timer of server 3 does nothing any more, and the cluster goes on. -/
theorem electionsGoOn_steppingDown :
    ∃ final ∈ Execution.run (step trio) (firstElection ++ steppingDown) init,
      ¬ (final (localServer 3)).server.Alert ∧
        ∃ head ∈ trio.srvList, CarriesOn trio final head := by
  have enabled : ∃ final ∈ Execution.run (step trio) (firstElection ++ steppingDown) init,
      ¬ (final (localServer 3)).server.Alert ∧
        ∀ id ∈ trio.srvList, (final id).server.state.currentTerm + 1 < termModulus := by
    decide +kernel
  obtain ⟨final, execution, ignored, small⟩ := enabled
  exact ⟨final, execution, ignored,
    electionsGoOn_of_electsSafely trio (by decide) execution (by decide +kernel) small⟩

end Cluster

end Quintet
