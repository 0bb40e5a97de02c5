import QuintetRaft.Safety.AtMostOnce
import QuintetRaft.Safety.IndexBounds

/-!
# Acknowledged calls

A thread that offers a command to the servers returns when a leader has stored it, before any other
server has.  From then on the command can be lost: the leader of the greatest term holds it exactly
as long as no step puts a leader in that place whose log lacks it, or cuts it off the log there.
-/

namespace Quintet

/-! ## The foremost leader -/

namespace Server

variable {info : ServerInfo} {srv : Server} {event : Event} {result : Server × List Output}

/-- The term a server leads in, if it does. -/
def rank (srv : Server) : Option Nat :=
  if srv.identity = .leader then some srv.state.currentTerm else none

/-- The term a server leads in after an event. -/
def rankAfter (srv : Server) (event : Event) : Option Nat :=
  if (if event = .transform then srv.nextTarget = some .leader else srv.identity = .leader) then
    some (srv.termAfter event)
  else none

theorem step_rank (taken : step info srv event = some result) :
    result.1.rank = srv.rankAfter event := by
  unfold rank rankAfter
  rw [step_currentTerm taken]
  by_cases moves : event = .transform
  · subst moves
    obtain ⟨target, term, rest, queue, -, rfl⟩ := step_transform.mp taken
    simp [transform_identity, nextTarget, queue]
  · simp only [step_identity taken moves, if_neg moves]

/-- An event that changes the log does not raise the rank. -/
theorem rankAfter_le (changes : srv.entriesAfter event ≠ srv.state.entries) {term : Nat}
    (leads : term ∈ srv.rankAfter event) : ∃ earlier ∈ srv.rank, term ≤ earlier := by
  have kept : event ≠ .transform := fun moves => changes (by rw [moves]; rfl)
  simp only [rankAfter, if_neg kept, Option.mem_def, Option.ite_none_right_eq_some,
    Option.some.injEq] at leads
  obtain ⟨role, rfl⟩ := leads
  refine ⟨srv.state.currentTerm, by rw [rank, if_pos role, Option.mem_def], ?_⟩
  cases event with
  | rpcAppendEntries msg =>
      rw [termAfter, if_pos (.inr role)]
      exact Nat.min_le_left _ _
  | rpcAddLog msg => exact Nat.le_refl _
  | _ => exact absurd rfl changes

/-- An accepted append request cuts a command off the log: no entry before the first conflict is
its, and none that the request puts in place of the others. -/
def CutsCommand (srv : Server) (event : Event) (command : AddLogMessage) : Prop :=
  ∃ msg ∈ event.appendRequest, srv.Accepts msg ∧
    ∃ idx < msg.logEntries.length,
      idx = matchingEntries srv.state.entries (msg.prevLogIdx + 1) msg.logEntries ∧
      ∀ entry ∈ srv.state.entries.take (msg.prevLogIdx + 1 + idx) ++ msg.logEntries.drop idx,
        entry.key ≠ command.key

/-- A command leaves a log only by being cut off. -/
theorem step_holdsOperation (taken : step info srv event = some result)
    {command : AddLogMessage} (held : holdsOperation srv.state command) :
    holdsOperation result.1.state command ↔ ¬ srv.CutsCommand event command := by
  rw [holdsOperation_iff] at held ⊢
  rw [step_entries taken]
  cases event with
  | rpcAppendEntries msg =>
      simp only [entriesAfter, CutsCommand, Event.appendRequest, Option.mem_def,
        Option.some.injEq, exists_eq_left']
      split_ifs with accepts
      · by_cases agrees : ∀ idx < msg.logEntries.length, AgreesAt srv.state.entries msg idx
        · rw [replicate_of_agrees agrees]
          refine iff_of_true held ?_
          rintro ⟨-, idx, short, rfl, -⟩
          exact short.ne (Nat.le_antisymm (matchingEntries_le _ _)
            (le_matchingEntries_iff.mpr ⟨Nat.le_refl _, agrees⟩))
        · obtain ⟨equal, short⟩ := replicate_of_conflict agrees
          rw [equal]
          constructor
          · rintro ⟨entry, member, same⟩ ⟨-, idx, -, rfl, lacks⟩
            exact lacks entry member same
          · intro keeps
            by_contra lacks
            exact keeps ⟨accepts, _, short, rfl, fun entry member same =>
              lacks ⟨entry, member, same⟩⟩
      · exact iff_of_true held fun cuts => accepts cuts.1
  | rpcAddLog msg =>
      refine iff_of_true ?_ (by simp [CutsCommand, Event.appendRequest])
      obtain ⟨entry, member, same⟩ := held
      refine ⟨entry, ?_, same⟩
      simp only [entriesAfter]
      split_ifs
      · exact List.mem_append_left _ member
      · exact member
  | _ => exact iff_of_true held (by simp [CutsCommand, Event.appendRequest])

end Server

/-- Of the servers that lead, none leads in a greater term. -/
def Foremost (members : List ServerId) (ranks : ServerId → Option Nat) (id : ServerId) : Prop :=
  id ∈ members ∧ ∃ term ∈ ranks id, ∀ other ∈ members, ∀ rival ∈ ranks other, rival ≤ term

instance (members : List ServerId) (ranks : ServerId → Option Nat) (id : ServerId) :
    Decidable (Foremost members ranks id) :=
  inferInstanceAs (Decidable (_ ∧ ∃ _ ∈ _, ∀ _ ∈ _, ∀ _ ∈ _, _))

/-- A leader that was not foremost with a rank is not foremost with a smaller one. -/
theorem Foremost.of_update {members : List ServerId} {ranks : ServerId → Option Nat}
    {id : ServerId} {changed : Option Nat}
    (foremost : Foremost members (Function.update ranks id changed) id)
    (higher : ∀ term ∈ changed, ∃ earlier ∈ ranks id, term ≤ earlier) :
    Foremost members ranks id := by
  obtain ⟨member, term, leads, greatest⟩ := foremost
  rw [Function.update_self] at leads
  obtain ⟨earlier, led, below⟩ := higher term leads
  refine ⟨member, earlier, led, fun other known rival leading => ?_⟩
  by_cases same : other = id
  · subst same
    exact (Option.mem_unique leading led).le
  · refine (greatest other known rival ?_).trans below
    rwa [Function.update_of_ne same]

namespace Cluster

/-- The terms in which the servers lead. -/
def ranks (cluster : Cluster) (id : ServerId) : Option Nat := (cluster id).server.rank

/-- The terms in which they lead after a step. -/
def ranksAfter (cluster : Cluster) (label : ServerId × Event) : ServerId → Option Nat :=
  Function.update cluster.ranks label.1 ((cluster label.1).server.rankAfter label.2)

theorem step_ranks {config : ClusterConfig} {before after : Cluster} {label : ServerId × Event}
    (taken : step config before label = some after) : after.ranks = before.ranksAfter label := by
  obtain ⟨-, -, result, moved, rfl⟩ := step_eq_some.mp taken
  funext id
  by_cases same : id = label.1
  · subst same
    simp [ranks, ranksAfter, Server.step_rank moved]
  · simp [ranks, ranksAfter, Function.update_of_ne same]

/-- Whether a leader that a step leaves or makes foremost holds a command after it. -/
theorem step_holdsOperation_iff {config : ClusterConfig} {before after : Cluster}
    {label : ServerId × Event} (taken : step config before label = some after)
    {members : List ServerId} {id : ServerId}
    (foremost : Foremost members (before.ranksAfter label) id) {command : AddLogMessage}
    (held : Foremost members before.ranks id →
      Server.holdsOperation (before id).server.state command) :
    Server.holdsOperation (after id).server.state command ↔
      if Foremost members before.ranks id then
        id = label.1 → ¬ (before id).server.CutsCommand label.2 command
      else Server.holdsOperation (before id).server.state command := by
  obtain ⟨-, -, result, moved, rfl⟩ := step_eq_some.mp taken
  by_cases same : id = label.1
  · subst same
    rw [Function.update_self]
    split_ifs with was
    · simpa using Server.step_holdsOperation moved (held was)
    · -- a step that makes the server foremost leaves its log alone
      have unchanged : result.1.state.entries = (before label.1).server.state.entries := by
        rw [Server.step_entries moved]
        by_contra changes
        exact was (foremost.of_update fun _ => Server.rankAfter_le changes)
      rw [Server.holdsOperation, unchanged]
      rfl
  · rw [Function.update_of_ne same]
    split_ifs with was
    · exact iff_of_true (held was) fun acting => absurd acting same
    · exact Iff.rfl

end Cluster

namespace System

variable {Any : Type} {config : ClusterConfig} {before after : System Any} {action : Action}

/-- The `addLog` thread of a command has returned, and its promise is not set yet. -/
def Awaited (system : System Any) (command : AddLogMessage) : Prop :=
  command ∈ system.returned ∧ command.prmIdx ∈ (system.interfaces command.srvId).prms

instance (system : System Any) (command : AddLogMessage) : Decidable (system.Awaited command) :=
  inferInstanceAs (Decidable (_ ∧ _))

/-- The foremost leaders hold every command that is awaited. -/
def HoldsAwaited (config : ClusterConfig) (system : System Any) : Prop :=
  ∀ id, Foremost config.srvList system.cluster.ranks id →
    ∀ command, system.Awaited command →
      Server.holdsOperation (system.cluster id).server.state command

/-- A command becomes awaited: its thread gets an answer, or a new call reuses the number of its
promise. -/
def NewlyAwaited (before : System Any) : Action → AddLogMessage → Prop
  | .asyncCall server _ _, command =>
      command ∈ before.returned ∧ command.srvId = server ∧
        command.prmIdx = (before.interfaces server).curPrmIdx
  | .addLogReply answered _ reply, command =>
      command = answered ∧ reply.success ∧
        command.prmIdx ∈ (before.interfaces command.srvId).prms
  | .raft _, _ | .apply _, _ => False

theorem awaited_cases (taken : step config before action = some after) {command : AddLogMessage}
    (awaited : after.Awaited command) :
    before.Awaited command ∨ before.NewlyAwaited action command := by
  obtain ⟨returned, waits⟩ := awaited
  cases action with
  | asyncCall server opName args =>
      obtain ⟨-, rfl⟩ := step_asyncCall.mp taken
      dsimp only at returned waits
      by_cases same : command.srvId = server
      · rw [same, Function.update_self] at waits
        rcases List.mem_insert_iff.mp waits with promise | old
        · exact .inr ⟨returned, same, promise⟩
        · exact .inl ⟨returned, same ▸ old⟩
      · rw [Function.update_of_ne same] at waits
        exact .inl ⟨returned, waits⟩
  | raft label =>
      obtain ⟨-, cluster, -, rfl⟩ := step_raft.mp taken
      exact .inl ⟨returned, waits⟩
  | addLogReply answered server reply =>
      obtain ⟨-, rfl⟩ := step_addLogReply.mp taken
      split_ifs at returned waits with success
      · rcases List.mem_append.mp returned with old | new
        · exact .inl ⟨old, waits⟩
        · exact .inr ⟨List.mem_singleton.mp new, success, waits⟩
      · exact .inl ⟨returned, waits⟩
  | apply server =>
      obtain ⟨entry, -, rfl⟩ := step_apply.mp taken
      refine .inl ⟨returned, ?_⟩
      dsimp only at waits
      by_cases same : command.srvId = server
      · rw [same, Function.update_self] at waits
        exact same ▸ Interface.apply_prms_subset _ _ _ waits
      · rwa [Function.update_of_ne same] at waits

theorem NewlyAwaited.awaited (taken : step config before action = some after)
    {command : AddLogMessage} (new : before.NewlyAwaited action command) :
    after.Awaited command := by
  cases action with
  | asyncCall server opName args =>
      obtain ⟨-, rfl⟩ := step_asyncCall.mp taken
      obtain ⟨returned, same, promise⟩ := new
      refine ⟨returned, ?_⟩
      dsimp only
      rw [same, Function.update_self, promise]
      exact List.mem_insert_self
  | addLogReply answered server reply =>
      obtain ⟨-, rfl⟩ := step_addLogReply.mp taken
      obtain ⟨rfl, success, waits⟩ := new
      rw [if_pos success]
      exact ⟨List.mem_append_right _ (List.mem_singleton_self _), waits⟩
  | raft label => exact new.elim
  | apply server => exact new.elim

/-- Only the servers change the cluster. -/
theorem step_cluster (taken : step config before action = some after) :
    (∃ label, action = .raft label) ∨
      (∀ label, action ≠ .raft label) ∧ after.cluster = before.cluster := by
  cases action with
  | asyncCall server opName args =>
      obtain ⟨-, rfl⟩ := step_asyncCall.mp taken
      exact .inr ⟨by simp, rfl⟩
  | raft label => exact .inl ⟨label, rfl⟩
  | addLogReply answered server reply =>
      obtain ⟨-, rfl⟩ := step_addLogReply.mp taken
      split_ifs <;> exact .inr ⟨by simp, rfl⟩
  | apply server =>
      obtain ⟨entry, -, rfl⟩ := step_apply.mp taken
      exact .inr ⟨by simp, rfl⟩

/-- No step brings a foremost leader without an awaited command. -/
structure KeepsAwaited (config : ClusterConfig) (before : System Any) (action : Action)
    (_ : System Any) : Prop where
  /-- When a command becomes awaited the foremost leaders hold it. -/
  answered : ∀ command, before.NewlyAwaited action command →
    ∀ id, Foremost config.srvList before.cluster.ranks id →
      Server.holdsOperation (before.cluster id).server.state command
  /-- A server that becomes foremost holds what is awaited, and one that stays foremost has none of
  it cut off its log. -/
  kept : ∀ label, action = .raft label →
    ∀ id, Foremost config.srvList (before.cluster.ranksAfter label) id →
      ∀ command, before.Awaited command →
        if Foremost config.srvList before.cluster.ranks id then
          id = label.1 → ¬ (before.cluster id).server.CutsCommand label.2 command
        else Server.holdsOperation (before.cluster id).server.state command

/-- A step keeps the awaited commands in the logs of the foremost leaders exactly when it brings no
foremost leader without one. -/
theorem holdsAwaited_step_iff (holds : HoldsAwaited config before)
    (taken : step config before action = some after) :
    HoldsAwaited config after ↔ KeepsAwaited config before action after := by
  rcases step_cluster taken with ⟨label, rfl⟩ | ⟨other, same⟩
  · obtain ⟨-, cluster, moved, rfl⟩ := step_raft.mp taken
    have equivalent := fun id
      (foremost : Foremost config.srvList (before.cluster.ranksAfter label) id)
      command (awaited : before.Awaited command) =>
      Cluster.step_holdsOperation_iff moved foremost fun was => holds id was command awaited
    constructor
    · intro later
      refine ⟨fun _ new => new.elim, ?_⟩
      rintro _ ⟨⟩ id foremost command awaited
      refine (equivalent id foremost command awaited).mp (later id ?_ command awaited)
      rwa [Cluster.step_ranks moved]
    · intro keeps id foremost command awaited
      rw [Cluster.step_ranks moved] at foremost
      exact (equivalent id foremost command awaited).mpr
        (keeps.kept label rfl id foremost command awaited)
  · constructor
    · intro later
      refine ⟨fun command new id foremost => ?_, ?_⟩
      · have held := later id (same ▸ foremost) command (new.awaited taken)
        rwa [same] at held
      · exact fun label raft => absurd raft (other label)
    · intro keeps id foremost command awaited
      rw [same] at foremost ⊢
      rcases awaited_cases taken awaited with old | new
      · exact holds id foremost command old
      · exact keeps.answered command new id foremost

theorem holdsAwaited_init (fs : ServerId → ByteString → Option (ByteString → Any)) :
    HoldsAwaited config (init fs) :=
  fun _ _ _ awaited => by simp [Awaited, init] at awaited

/-! ## Answers after the commit -/

/-- A command stands in the committed part of some server's log. -/
def Commits (config : ClusterConfig) (cluster : Cluster) (command : AddLogMessage) : Prop :=
  ∃ id ∈ config.srvList, ∃ entry ∈ (cluster id).server.state.entries.take
    ((cluster id).server.state.commitIdx + 1), entry.key = command.key

/-- The foremost leaders lead in the greatest term that servers have seen. -/
def LeadersCurrent (config : ClusterConfig) (cluster : Cluster) : Prop :=
  ∀ id, Foremost config.srvList cluster.ranks id →
    (cluster id).server.leader.initTerm = (cluster id).seenTerm ∧
      ∀ other ∈ config.srvList, (cluster other).seenTerm ≤ (cluster id).seenTerm

/-- The servers take steady steps, no foremost leader is left behind, and commands are committed
before their threads get an answer. -/
structure AnswersLate (config : ClusterConfig) (before : System Any) (action : Action)
    (after : System Any) : Prop where
  /-- Servers take steady steps. -/
  steady : Steady config before action after
  /-- The foremost leaders are current. -/
  current : LeadersCurrent config after.cluster
  /-- Answers come after the commit. -/
  committed : ∀ command, before.NewlyAwaited action command →
    Commits config before.cluster command

/-- What is committed stays committed in steady steps. -/
theorem Commits.step {cluster later : Cluster} {label : ServerId × Event}
    {command : AddLogMessage} (commits : Commits config cluster command)
    (indexed : ∀ id, (cluster id).server.state.Indexed)
    (keeps : Cluster.KeepsIndices cluster label later) : Commits config later command := by
  obtain ⟨id, member, entry, committed, same⟩ := commits
  refine ⟨id, member, entry, ?_, same⟩
  have kept := (keeps id).kept
  have long := List.length_take_of_le (Nat.succ_le_of_lt (indexed id).inside)
  have begins := List.prefix_take_iff.mpr
    ⟨kept, long.le.trans (Nat.succ_le_succ (keeps id).commits)⟩
  exact begins.subset committed

/-- A leader in the greatest term holds what is committed. -/
theorem Commits.holdsOperation {cluster : Cluster}
    {history : Leadership.History ServerId LogEntry} {command : AddLogMessage}
    (commits : Commits config cluster command) (simulates : Simulates config history cluster)
    (current : LeadersCurrent config cluster) {id : ServerId}
    (foremost : Foremost config.srvList cluster.ranks id) :
    Server.holdsOperation (cluster id).server.state command := by
  obtain ⟨inTerm, greatest⟩ := current id foremost
  obtain ⟨-, term, leads, -⟩ := foremost
  have role : (cluster id).server.identity = .leader := by
    simp only [Cluster.ranks, Server.rank, Option.mem_def, Option.ite_none_right_eq_some] at leads
    exact leads.1
  obtain ⟨other, member, entry, committed, same⟩ := commits
  have upTo : history.current other ≤ (cluster id).server.leader.initTerm := by
    rw [(simulates.present other).term, inTerm]
    exact greatest other member
  have led := (simulates.leading id).office role
  have begins := (simulates.handed other).committed.prefix_record simulates.sound sentinel_oldest
    (by simp) upTo (by simp [led])
  rw [← simulates.log_eq_record role inTerm] at begins
  exact Server.holdsOperation_iff.mpr ⟨entry, begins.subset committed, same⟩

/-- What holds of the system when answers come after the commit. -/
structure LateRecord (config : ClusterConfig) (system : System Any) : Prop where
  /-- Leaders have been elected. -/
  record : Cluster.SenderRecord config system.cluster
  /-- The cluster has a history. -/
  simulates : ∃ history, Simulates config history system.cluster
  /-- Indices point into the logs. -/
  indexed : ∀ id, (system.cluster id).server.state.Indexed
  /-- What is awaited is committed. -/
  commits : ∀ command, system.Awaited command → Commits config system.cluster command

theorem LateRecord.init (config : ClusterConfig)
    (fs : ServerId → ByteString → Option (ByteString → Any)) :
    LateRecord config (System.init fs) where
  record := Cluster.senderRecord_init
  simulates := ⟨_, simulates_init config⟩
  indexed _ := indexed_init
  commits _ awaited := by simp [Awaited, System.init] at awaited

theorem LateRecord.step (record : LateRecord config before)
    (taken : System.step config before action = some after)
    (late : AnswersLate config before action after) : LateRecord config after := by
  obtain ⟨senders, ⟨history, simulates⟩, indexed, commits⟩ := record
  rcases step_cluster taken with ⟨label, rfl⟩ | ⟨-, same⟩
  · obtain ⟨-, cluster, moved, rfl⟩ := step_raft.mp taken
    have steady : Cluster.Steady config before.cluster label cluster := late.steady
    have keeps := (Cluster.keepsIndices_step_iff indexed moved).mpr
      (steady.commitsLogged simulates indexed moved)
    obtain ⟨later, -, simulated⟩ := simulates.step senders moved steady
    exact
      { record := senders.step moved (steady.electsSafely senders moved)
        simulates := ⟨later, simulated⟩
        indexed := fun id => (keeps id).toIndexed
        commits := fun command awaited => (commits command awaited).step indexed keeps }
  · refine ⟨?_, ⟨history, ?_⟩, ?_, fun command awaited => ?_⟩
    · rwa [same]
    · rwa [same]
    · rwa [same]
    · rw [same]
      rcases awaited_cases taken awaited with old | new
      · exact commits command old
      · exact late.committed command new

/-- Along a run the foremost leaders hold every awaited command exactly when no step brings a
foremost leader without one.  In particular they do when servers take steady steps, the foremost
leaders lead in the greatest term seen, and threads get their answers after the commit. -/
theorem holdsAwaited_iff (config : ClusterConfig)
    (fs : ServerId → ByteString → Option (ByteString → Any)) (actions : List Action) :
    (Execution.Along (step config) (fun _ _ after => HoldsAwaited config after) actions (init fs) ↔
        Execution.Along (step config) (KeepsAwaited config) actions (init fs)) ∧
      (Execution.Along (step config) (AnswersLate config) actions (init fs) →
        Execution.Along (step config) (fun _ _ after => HoldsAwaited config after) actions
          (init fs)) := by
  refine ⟨Execution.along_congr_of_invariant (fun _ _ _ => holdsAwaited_step_iff)
    (fun _ _ _ holds taken keeps => (holdsAwaited_step_iff holds taken).mpr keeps)
    (holdsAwaited_init fs), ?_⟩
  have preserved := fun (before : System Any) action after (record : LateRecord config before)
    (taken : step config before action = some after)
    (late : AnswersLate config before action after) =>
    show LateRecord config after ∧ HoldsAwaited config after from by
      have later := record.step taken late
      obtain ⟨history, simulates⟩ := later.simulates
      exact ⟨later, fun id foremost command awaited =>
        (later.commits command awaited).holdsOperation simulates late.current foremost⟩
  exact Execution.along_of_invariant preserved (.init config fs)

/-- Server 1 commits the command of the second call before its answer reaches the thread. -/
def lateAnswer : List Action :=
  twoCalls (localServer 1) "0" "1" ++
    (Cluster.firstElection ++ Cluster.firstReplication ++ Cluster.firstCommit).map .raft ++
    [.addLogReply Cluster.firstCommand (localServer 1)
      { success := true, leaderId := localServer 1 }]

/-- The commands that a step can make awaited. -/
def answers (before : System Any) : Action → List AddLogMessage
  | .asyncCall .. => before.returned
  | .addLogReply answered .. => [answered]
  | .raft _ | .apply _ => []

theorem NewlyAwaited.mem_answers {command : AddLogMessage}
    (new : before.NewlyAwaited action command) : command ∈ before.answers action := by
  cases action with
  | asyncCall server opName args => exact new.1
  | addLogReply answered server reply => exact List.mem_singleton.mpr new.1
  | raft label => exact new.elim
  | apply server => exact new.elim

theorem answersLate_lateAnswer :
    Execution.Along (step trio) (AnswersLate trio) lateAnswer (init echo) := by
  have late : Execution.Along (step trio)
      (fun before action after => Steady trio before action after ∧
        (∀ id ∈ trio.srvList, Foremost trio.srvList after.cluster.ranks id →
          (after.cluster id).server.leader.initTerm = (after.cluster id).seenTerm ∧
            ∀ other ∈ trio.srvList,
              (after.cluster other).seenTerm ≤ (after.cluster id).seenTerm) ∧
        ∀ command ∈ before.answers action, ∃ id ∈ trio.srvList,
          ∃ entry ∈ (before.cluster id).server.state.entries.take
            ((before.cluster id).server.state.commitIdx + 1), entry.key = command.key)
      lateAnswer (init echo) := by
    decide +kernel
  exact late.mono fun _ _ _ ⟨steady, current, committed⟩ =>
    { steady := steady
      current := fun id foremost => current id foremost.1 foremost
      committed := fun command new => committed command new.mem_answers }

/-- The command is awaited in the end, and the foremost leaders hold it. -/
theorem holdsAwaited_lateAnswer :
    (∃ final ∈ Execution.run (step trio) lateAnswer (init echo),
        final.Awaited Cluster.firstCommand) ∧
      Execution.Along (step trio) (fun _ _ after => HoldsAwaited trio after) lateAnswer
        (init echo) := by
  have waits : ∃ final ∈ Execution.run (step trio) lateAnswer (init echo),
      final.Awaited Cluster.firstCommand := by
    decide +kernel
  exact ⟨waits, (holdsAwaited_iff trio echo lateAnswer).2 answersLate_lateAnswer⟩

/-- Server 1 stores the command of the second call and answers before it has sent it to anyone. -/
def earlyAnswer : List Action :=
  twoCalls (localServer 1) "0" "1" ++
    (Cluster.firstElection ++
      [(localServer 1, .rpcAddLog Cluster.firstCommand),
        (localServer 1, Event.addLogState)]).map .raft ++
    [.addLogReply Cluster.firstCommand (localServer 1)
      { success := true, leaderId := localServer 1 }]

/-- Server 3 is elected in term 2 by server 2, whose log is as empty as its own. -/
def rivalElection : List (ServerId × Event) :=
  [(localServer 3, .timeout), (localServer 3, .transform),
    (localServer 3, .timeout), (localServer 3, .transform),
    (localServer 2, .rpcRequestVote (Cluster.firstRequest 2 (localServer 3))),
    (localServer 3, .receiveVote (localServer 2)
      (Cluster.firstRequest 2 (localServer 3)) (2, true)),
    (localServer 3, .transform)]

/-- The new leader does not hold the command, which nobody will send again. -/
theorem holdsAwaited_counterexample :
    (Execution.run (step trio) (earlyAnswer ++ rivalElection.map .raft) (init echo)).isSome ∧
      ¬ Execution.Along (step trio) (fun _ _ after => HoldsAwaited trio after)
        (earlyAnswer ++ rivalElection.map .raft) (init echo) := by
  have enabled : (Execution.run (step trio) (earlyAnswer ++ rivalElection.map .raft)
      (init echo)).isSome := by
    decide +kernel
  have fails : ¬ Execution.Along (step trio)
      (fun _ _ after => Foremost trio.srvList after.cluster.ranks (localServer 3) →
        after.Awaited Cluster.firstCommand →
          Server.holdsOperation (after.cluster (localServer 3)).server.state Cluster.firstCommand)
      (earlyAnswer ++ rivalElection.map .raft) (init echo) := by
    decide +kernel
  exact ⟨enabled, fun holds => fails (holds.mono fun _ _ _ holds foremost awaited =>
    holds _ foremost _ awaited)⟩

end System

end Quintet
