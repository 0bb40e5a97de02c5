import QuintetRaft.Safety.IndexBounds

/-!
# The log and the cursors of a leader

A leader's log only grows, and its appending threads stay inside it, unless it accepts an append
request of another leader, a follower takes back what it has acknowledged, or a suspended `addLog`
outlives a change of identity.
-/

namespace Quintet

namespace FollowerNode

/-- The cursors of a follower point into a log of the given size. -/
structure InBounds (size : Nat) (node : FollowerNode) : Prop where
  /-- There is an entry before the next one to send. -/
  positive : 1 ≤ node.nextIdx
  /-- It is inside the log. -/
  inside : node.nextIdx ≤ size
  /-- What is known to be replicated has been sent. -/
  matched : node.matchIdx < node.nextIdx

/-- The cursors point into the log, and so does a message waiting for its answer. -/
structure Bounded (size : Nat) (node : FollowerNode) : Prop extends node.InBounds size where
  /-- The message starts at the next entry to send and ends inside the log. -/
  pending : ∀ oldMatchIdx retryTimes msg,
    node.appendingThread = .sending oldMatchIdx retryTimes msg →
      msg.prevLogIdx + 1 = node.nextIdx ∧ msg.reach ≤ size

variable {size larger : Nat} {node : FollowerNode}

theorem bounded_default (some : 0 < size) : Bounded size {} where
  positive := Nat.le_refl 1
  inside := some
  matched := Nat.one_pos
  pending _ _ _ thread := by simp at thread

namespace Bounded

theorem mono (bounded : node.Bounded size) (grows : size ≤ larger) : node.Bounded larger where
  positive := bounded.positive
  inside := bounded.inside.trans grows
  matched := bounded.matched
  pending _ _ msg thread :=
    (bounded.pending _ _ msg thread).imp_right fun fits => fits.trans grows

/-- A thread that waits for no answer can be in any state. -/
theorem withThread (bounded : node.Bounded size) (thread : AppendingThread)
    (quiet : ∀ oldMatchIdx retryTimes msg, thread ≠ .sending oldMatchIdx retryTimes msg) :
    Bounded size { node with appendingThread := thread } :=
  { bounded with
    pending := fun _ _ msg sends => absurd sends (quiet _ _ msg) }

/-- After a rejection the thread goes back by one entry, which it had not seen acknowledged. -/
theorem retreat (bounded : node.Bounded size) (apart : node.nextIdx ≠ node.matchIdx + 1)
    (oldMatchIdx retryTimes : Nat) :
    Bounded size
      { node with
        nextIdx := node.nextIdx - 1
        appendingThread := .trying oldMatchIdx retryTimes } := by
  have positive := bounded.positive
  have inside := bounded.inside
  have matched := bounded.matched
  refine ⟨⟨?_, ?_, ?_⟩, fun _ _ _ sends => by simp at sends⟩
  all_goals
    dsimp only
    omega

end Bounded

end FollowerNode

variable {info : ServerInfo} {srv : Server} {event : Event} {result : Server × List Output}

/-- A move keeps the cursors inside the log unless the follower takes something back. -/
theorem NodeStep.bounded {target : ServerId} {node changed : FollowerNode}
    (moved : NodeStep info srv target event node changed)
    (known : srv.leader.followerNodes target = some node)
    (bounded : node.Bounded srv.state.entries.length) (keeps : ¬ srv.RetractsMatch event) :
    changed.Bounded srv.state.entries.length := by
  cases moved with
  | send thread built =>
      obtain ⟨-, reach, next, -⟩ := createAppendEntriesMessage_eq_some built bounded.positive
      refine { bounded with pending := fun _ _ _ sends => ?_ }
      obtain ⟨-, -, rfl⟩ := AppendingThread.sending.inj sends
      exact ⟨next, reach.le⟩
  | @accepted _ oldMatchIdx retryTimes term msg thread =>
      obtain ⟨next, fits⟩ := bounded.pending oldMatchIdx retryTimes msg thread
      have positive := bounded.positive
      rw [AppendEntriesMessage.reach, next] at fits
      refine ⟨⟨?_, fits, ?_⟩, fun _ _ _ sends => by simp at sends⟩
      all_goals
        dsimp only
        omega
  | rejected thread later current =>
      refine bounded.retreat (fun next => keeps ?_) _ _
      exact ⟨rfl, current, node, known, later, next⟩
  | _ => exact bounded.withThread _ (by simp)

namespace Server

/-- What holds of a leader whose cursors stay inside its log. -/
structure LeaderInBounds (info : ServerInfo) (srv : Server) : Prop where
  /-- The cursors of all followers point into the log. -/
  nodes : ∀ target node, srv.leader.followerNodes target = some node →
    node.InBounds srv.state.entries.length
  /-- The message for the next entry to send can be built. -/
  sends : ∀ target node, srv.leader.followerNodes target = some node →
    (srv.createAppendEntriesMessage info node.nextIdx).isSome
  /-- Every counter belongs to an entry. -/
  counters : srv.leader.logStates.length ≤ srv.state.entries.length

/-- A server is tidy, its cursors and its messages point into its log, and as a leader it has no
more counters than entries. -/
structure LeaderRecord (srv : Server) : Prop where
  /-- Only leaders have cursors. -/
  tidy : srv.Tidy
  /-- The cursors and the messages point into the log. -/
  bounded : ∀ target node, srv.leader.followerNodes target = some node →
    node.Bounded srv.state.entries.length
  /-- Every counter belongs to an entry. -/
  counters : srv.identity = .leader → srv.leader.logStates.length ≤ srv.state.entries.length

theorem leaderRecord_init : LeaderRecord {} where
  tidy := tidy_init
  bounded _ _ known := by simp at known
  counters role := by simp at role

theorem LeaderRecord.inBounds (record : srv.LeaderRecord) (role : srv.identity = .leader) :
    srv.LeaderInBounds info where
  nodes target node known := (record.bounded target node known).toInBounds
  sends target node known := by
    have bounded := record.bounded target node known
    have present : termAt srv.state.entries (node.nextIdx - 1) ≠ none := by
      have positive := bounded.positive
      have inside := bounded.inside
      rw [Ne, termAt_eq_none]
      omega
    simpa [createAppendEntriesMessage, Option.isSome_iff_ne_none] using present
  counters := record.counters role

/-- A leader's log is unchanged, or extended by an `addLog`. -/
def AppendsOnly (srv : Server) (event : Event) (after : Server) : Prop :=
  after.state.entries = srv.state.entries ∨
    ∃ msg, event = .rpcAddLog msg ∧
      after.state.entries = srv.state.entries ++ [logEntry msg srv.state.currentTerm]

theorem AppendsOnly.length_le {after : Server} (appends : srv.AppendsOnly event after) :
    srv.state.entries.length ≤ after.state.entries.length := by
  rcases appends with same | ⟨_, -, longer⟩
  · rw [same]
  · rw [longer, List.length_append]
    exact Nat.le_add_right _ _

/-- A leader's log grows by `addLog` only, unless it accepts an append request that changes it. -/
theorem appendsOnly_iff (taken : step info srv event = some result)
    (role : srv.identity = .leader) :
    srv.AppendsOnly event result.1 ↔ ¬ srv.OverwritesLeader event := by
  constructor
  · rintro appends ⟨-, msg, asked, accepts, idx, inMessage, conflict⟩
    cases event with
    | rpcAppendEntries request =>
        obtain rfl : request = msg := by simpa [Event.appendRequest] using asked
        rcases appends with same | ⟨_, adding, -⟩
        · rw [step_entries taken, entriesAfter, if_pos accepts] at same
          have appended := replicate_appended (lt_length_of_termAt accepts.2.2)
          exact conflict (same ▸ appended.terms idx inMessage)
        · simp at adding
    | _ => simp [Event.appendRequest] at asked
  · intro intact
    rw [AppendsOnly, step_entries taken]
    cases event with
    | rpcAppendEntries msg =>
        left
        simp only [entriesAfter]
        split_ifs with accepts
        · refine replicate_of_agrees fun idx inMessage => ?_
          by_contra conflict
          exact intact ⟨role, msg, rfl, accepts, idx, inMessage, conflict⟩
        · rfl
    | rpcAddLog msg =>
        simp only [entriesAfter]
        split_ifs
        · exact .inr ⟨msg, rfl, rfl⟩
        · exact .inl rfl
    | _ => exact .inl rfl

/-- The cursors stay inside the log of a leader. -/
theorem bounded_step (record : srv.LeaderRecord) (taken : step info srv event = some result)
    (intact : ¬ srv.OverwritesLeader event) (keeps : ¬ srv.RetractsMatch event)
    (target : ServerId) (node : FollowerNode)
    (known : result.1.leader.followerNodes target = some node) :
    node.Bounded result.1.state.entries.length := by
  by_cases moves : event = .transform
  · subst moves
    rw [(Cursors.transform record.tidy taken fun _ _ => True).2 target node known]
    exact FollowerNode.bounded_default result.1.state.entries_length_pos
  · have role : srv.identity = .leader := by
      by_contra other
      have none := (step_office taken moves).2.2 target (record.tidy.nodes other target)
      rw [none] at known
      simp at known
    have grows := ((appendsOnly_iff taken role).mpr intact).length_le
    refine FollowerNode.Bounded.mono ?_ grows
    -- the node is an old one, or the one that the step has changed inside the old log
    have update : ∀ other changed, changed.Bounded srv.state.entries.length →
        result.1.leader.followerNodes =
          Function.update srv.leader.followerNodes other (some changed) →
        node.Bounded srv.state.entries.length := by
      intro other changed bounded same
      rw [same] at known
      rcases known_update known with ⟨rfl, rfl⟩ | old
      · exact bounded
      · exact record.bounded target node old
    cases step_books taken moves with
    | still same => exact record.bounded target node (same ▸ known)
    | adds msg adding idle stored same =>
        exact record.bounded target node (by simpa [same] using known)
    | added msg adding suspended same =>
        exact record.bounded target node (by simpa [same] using known)
    | moves other before changed present moved same =>
        have bounded := record.bounded other before present
        exact update other changed (moved.bounded present bounded keeps) (by rw [same])
    | counts other before idx replicateNum counting present thread counter same =>
        have bounded := record.bounded other before present
        exact update other _ (bounded.withThread (.counting (idx + 1)) (by simp)) (by rw [same])

/-- A leader keeps at most one counter for each entry. -/
theorem counters_step (record : srv.LeaderRecord) (taken : step info srv event = some result)
    (intact : ¬ srv.OverwritesLeader event) (once : ¬ srv.CountsTwice event)
    (role : result.1.identity = .leader) :
    result.1.leader.logStates.length ≤ result.1.state.entries.length := by
  by_cases moves : event = .transform
  · subst moves
    obtain ⟨target, term, rest, -, -, rfl⟩ := step_transform.mp taken
    obtain rfl : target = .leader := by simpa [transform_identity] using role
    simp [transform_leader, leaderInit, transform_state]
  · rw [step_identity taken moves] at role
    have soFar := record.counters role
    have grows := ((appendsOnly_iff taken role).mpr intact).length_le
    cases step_books taken moves with
    | still same => exact same ▸ soFar.trans grows
    | adds msg adding idle stored same => exact same ▸ soFar.trans grows
    | added msg adding suspended same =>
        have room : srv.leader.logStates.length < srv.state.entries.length := by
          by_contra full
          exact once ⟨adding, role, Nat.le_of_not_lt full⟩
        simp only [same, List.length_append, List.length_singleton]
        omega
    | moves target node changed known moved same => exact same ▸ soFar.trans grows
    | counts target node idx replicateNum counting known thread counter same =>
        simp only [same, List.length_set]
        exact soFar.trans grows

theorem LeaderRecord.step (record : srv.LeaderRecord)
    (taken : Server.step info srv event = some result)
    (intact : ¬ srv.OverwritesLeader event) (keeps : ¬ srv.RetractsMatch event)
    (once : ¬ srv.CountsTwice event) : result.1.LeaderRecord where
  tidy := record.tidy.step taken
  bounded := bounded_step record taken intact keeps
  counters := counters_step record taken intact once

/-- A follower that takes back what it has acknowledged puts its cursors out of order. -/
theorem not_retractsMatch (tidy : srv.Tidy) (taken : step info srv event = some result)
    (inBounds : result.1.identity = .leader → result.1.LeaderInBounds info) :
    ¬ srv.RetractsMatch event := by
  intro retracts
  cases event with
  | receiveAppendReply target msg reply =>
      obtain ⟨refused, current, node, known, later, next⟩ := retracts
      obtain ⟨term, success⟩ := reply
      obtain rfl : success = false := refused
      have role := tidy.role_of_known known
      have bounds := inBounds ((step_identity taken (by simp)).trans role)
      obtain ⟨same, oldMatchIdx, retryTimes, present, -, rfl⟩ := step_receiveAppendReply.mp taken
      obtain rfl : same = node := Option.some.inj (present.symm.trans known)
      have changed : (srv.receiveAppendReply target same oldMatchIdx retryTimes msg
          (term, false)).leader.followerNodes target =
            some { same with
              nextIdx := same.nextIdx - 1, appendingThread := .trying oldMatchIdx retryTimes } := by
        simp [receiveAppendReply, Nat.not_lt.mpr current, later]
      have matched := (bounds.nodes target _ changed).matched
      dsimp only at matched
      omega
  | _ => exact retracts

/-- A counter made twice is one counter too many. -/
theorem not_countsTwice (taken : step info srv event = some result)
    (inBounds : result.1.identity = .leader → result.1.LeaderInBounds info) :
    ¬ srv.CountsTwice event := by
  rintro ⟨rfl, role, full⟩
  have bounds := inBounds ((step_identity taken (by simp)).trans role)
  obtain ⟨msg, -, -, rfl⟩ := step_addLogState.mp taken
  have counters := bounds.counters
  simp only [addLogState, List.length_append, List.length_singleton] at counters
  omega

end Server

namespace Cluster

variable {config : ClusterConfig} {before after : Cluster} {label : ServerId × Event}

/-- The logs of leaders grow by `addLog` only, and their cursors and counters stay inside them. -/
structure LeadsInBounds (config : ClusterConfig) (before : Cluster) (label : ServerId × Event)
    (after : Cluster) : Prop where
  /-- No RPC that a leader receives overwrites or cuts its log. -/
  appends : ∀ id, (before id).server.identity = .leader →
    (after id).server.state.entries = (before id).server.state.entries ∨
      ∃ msg, label = (id, .rpcAddLog msg) ∧ (after id).server.state.entries =
        (before id).server.state.entries ++
          [Server.logEntry msg (before id).server.state.currentTerm]
  /-- The cursors and the counters of leaders point into their logs. -/
  inBounds : ∀ id, (after id).server.identity = .leader →
    (after id).server.LeaderInBounds (config.info id)

/-- No leader accepts a request that changes its log, no follower takes back what it has
acknowledged, and no `addLog` makes a counter that a later `init` has made. -/
def LeadsUndisturbed (before : Cluster) (label : ServerId × Event) (_ : Cluster) : Prop :=
  ¬ (before label.1).server.OverwritesLeader label.2 ∧
    ¬ (before label.1).server.RetractsMatch label.2 ∧
    ¬ (before label.1).server.CountsTwice label.2

instance (before : Cluster) (label : ServerId × Event) (after : Cluster) :
    Decidable (LeadsUndisturbed before label after) :=
  inferInstanceAs (Decidable (_ ∧ _))

theorem leaderRecord_step (record : ∀ id, (before id).server.LeaderRecord)
    (taken : step config before label = some after)
    (undisturbed : LeadsUndisturbed before label after) (id : ServerId) :
    (after id).server.LeaderRecord := by
  obtain ⟨intact, keeps, once⟩ := undisturbed
  exact forall_step taken (fun _ node => node.server.LeaderRecord) (fun id _ => record id)
    (fun _ _ moved => (record label.1).step moved intact keeps once) id

/-- A step keeps all leaders in bounds exactly when it is of none of the three kinds. -/
theorem leadsInBounds_step_iff (record : ∀ id, (before id).server.LeaderRecord)
    (taken : step config before label = some after) :
    LeadsInBounds config before label after ↔ LeadsUndisturbed before label after := by
  constructor
  · intro leads
    obtain ⟨-, -, result, moved, rfl⟩ := step_eq_some.mp taken
    obtain ⟨self, event⟩ := label
    have appends := leads.appends self
    have inBounds := leads.inBounds self
    rw [Function.update_self] at appends inBounds
    refine ⟨fun overwrites => ?_, Server.not_retractsMatch (record self).tidy moved inBounds,
      Server.not_countsTwice moved inBounds⟩
    refine (Server.appendsOnly_iff moved overwrites.1).mp ?_ overwrites
    exact (appends overwrites.1).imp_right fun ⟨msg, same, longer⟩ =>
      ⟨msg, (Prod.mk.inj same).2, longer⟩
  · intro undisturbed
    have later := leaderRecord_step record taken undisturbed
    refine ⟨?_, fun id role => (later id).inBounds role⟩
    refine forall_step taken (fun id node => (before id).server.identity = .leader →
      node.server.state.entries = (before id).server.state.entries ∨
        ∃ msg, label = (id, .rpcAddLog msg) ∧ node.server.state.entries =
          (before id).server.state.entries ++
            [Server.logEntry msg (before id).server.state.currentTerm]) (fun _ _ _ => .inl rfl) ?_
    intro result _ moved role
    exact ((Server.appendsOnly_iff moved role).mpr undisturbed.1).imp_right
      fun ⟨msg, adding, longer⟩ => ⟨msg, by rw [← adding], longer⟩

/-- Along a run the logs of leaders only grow and their cursors and counters stay inside exactly
when no leader accepts a request that changes its log, no follower takes back what it has
acknowledged, and no `addLog` outlives a change of identity. -/
theorem leadsInBounds_iff (config : ClusterConfig) (labels : List (ServerId × Event)) :
    Execution.Along (step config) (LeadsInBounds config) labels init ↔
      Execution.Along (step config) LeadsUndisturbed labels init := by
  have equivalent := fun before label after
    (record : ∀ id, (before id).server.LeaderRecord)
    (taken : step config before label = some after) => leadsInBounds_step_iff record taken
  exact Execution.along_congr_of_invariant equivalent (fun _ _ _ => leaderRecord_step)
    fun _ => Server.leaderRecord_init

/-- Server 3 is elected in term 2 with an empty log, stores a command and replicates it to server
1, which has not stepped down. -/
def rivalOverwrite : List (ServerId × Event) :=
  [(localServer 3, .timeout), (localServer 3, .transform),
    (localServer 3, .timeout), (localServer 3, .transform),
    (localServer 2, .rpcRequestVote (firstRequest 2 (localServer 3))),
    (localServer 3, .receiveVote (localServer 2) (firstRequest 2 (localServer 3)) (2, true)),
    (localServer 3, .transform), (localServer 3, .rpcAddLog rivalCommand),
    (localServer 3, .addLogState), (localServer 3, .startAppending (localServer 1)),
    (localServer 3, .sendAppendEntries (localServer 1)),
    (localServer 1, .rpcAppendEntries
      { term := 2, leaderId := localServer 3, logEntries := [Server.logEntry rivalCommand 2] })]

/-- Server 1 is still leader when its log is cut, and `entries.at` throws for its next message to
server 2. -/
theorem leadsInBounds_counterexample :
    (Execution.run (step trio) (firstElection ++ twoCommits ++ rivalOverwrite) init).isSome ∧
      ¬ Execution.Along (step trio) (LeadsInBounds trio)
        (firstElection ++ twoCommits ++ rivalOverwrite) init := by
  have enabled : (Execution.run (step trio)
      (firstElection ++ twoCommits ++ rivalOverwrite) init).isSome := by
    decide +kernel
  have fails : ¬ Execution.Along (step trio)
      (fun _ _ after => (after (localServer 1)).server.identity = .leader →
        ∀ node ∈ (after (localServer 1)).server.leader.followerNodes (localServer 2),
          ((after (localServer 1)).server.createAppendEntriesMessage (trio.info (localServer 1))
            node.nextIdx).isSome)
      (firstElection ++ twoCommits ++ rivalOverwrite) init := by
    decide +kernel
  exact ⟨enabled, fun leads => fails (leads.mono fun _ _ _ holds role node known =>
    (holds.inBounds _ role).sends _ node known)⟩

end Cluster

end Quintet
