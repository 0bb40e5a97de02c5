import QuintetRaft.Safety.IndexBounds

/-!
# Indices between the sections

Inside a handler the indices are in order too, after every section: what its first section has
found in the log is still there when the later ones change it, as long as nothing disturbs it.
-/

namespace Quintet

open Sections (Act Process)

/-- The committed part of the log agrees with an append request that passes the log test. -/
def ServerState.AgreesCommitted (state : ServerState) (msg : AppendEntriesMessage) : Prop :=
  termAt state.entries msg.prevLogIdx = some msg.prevLogTerm →
    ∀ idx < msg.logEntries.length, msg.prevLogIdx + 1 + idx ≤ state.commitIdx →
      AgreesAt state.entries msg idx

namespace Section

variable {info : ServerInfo} {srv after : Server} {section' : Section} {outputs : List Output}
  {next : Option Section} {event : Event}

/-- What a section in the middle of a handler relies on. -/
def Sound (srv : Server) : Section → Prop
  | dispatchAppendEntries msg => ¬ srv.CutsCommitted (.rpcAppendEntries msg)
  | followerTerm msg => srv.state.currentTerm ≤ msg.term → srv.state.AgreesCommitted msg
  | candidateTerm msg | candidateNotify msg _ | checkAppendTerm msg _ | readTerm msg
  | matchLog msg _ => srv.state.AgreesCommitted msg
  | replicate msg _ =>
      termAt srv.state.entries msg.prevLogIdx = some msg.prevLogTerm ∧ srv.state.AgreesCommitted msg
  | writeCommit msg _ => srv.state.commitIdx < msg.commitIdx
  | compareCommit idx => idx < srv.state.entries.length
  | raiseCommit idx => srv.state.commitIdx < idx ∧ idx < srv.state.entries.length
  | _ => True

theorem agreesCommitted_congr {state later : ServerState} {msg : AppendEntriesMessage}
    (agrees : state.AgreesCommitted msg) (entries : later.entries = state.entries)
    (commitIdx : later.commitIdx = state.commitIdx) : later.AgreesCommitted msg := by
  rw [ServerState.AgreesCommitted, entries, commitIdx]
  exact agrees

/-- A request that does not cut the committed part of the log agrees with it when it gets to the
log. -/
theorem agreesCommitted_of_intact {msg : AppendEntriesMessage}
    (intact : ¬ srv.CutsCommitted (.rpcAppendEntries msg)) (serving : srv.Serving)
    (passes : srv.identity = .follower → srv.state.currentTerm ≤ msg.term) :
    srv.state.AgreesCommitted msg := by
  intro matched idx inMessage upTo
  by_contra conflict
  exact intact ⟨msg, rfl, ⟨serving, passes, matched⟩, idx, inMessage, conflict, upTo⟩

/-- Most sections rely on nothing. -/
theorem sound_of_calm (calm : section'.Delicate = false) : section'.Sound srv := by
  cases section' with
  | dispatchAppendEntries | followerTerm | candidateTerm | candidateNotify | checkAppendTerm
  | readTerm | matchLog | replicate | readCommit | writeCommit | assignIdentity | reinitStates
  | compareCommit | raiseCommit => cases calm
  | _ => trivial

/-- A section hands on what the next one relies on. -/
theorem HandsOn.sound {later : Section} (hands : HandsOn srv after section' later)
    (sound : section'.Sound srv) : later.Sound after := by
  cases hands with
  | plain _ _ second => exact sound_of_calm second
  | follows role => exact fun passes => agreesCommitted_of_intact sound (.inl role) fun _ => passes
  | stands role =>
      exact agreesCommitted_of_intact sound (.inr (.inl role)) fun follows => by
        cases follows.symm.trans role
  | leads role =>
      exact agreesCommitted_of_intact sound (.inr (.inr role)) fun follows => by
        cases follows.symm.trans role
  | passes passes => exact sound passes
  | stepsDown | stays | recent => exact sound
  | notified same | checked same => exact agreesCommitted_congr sound same.entries same.commitIdx
  | matched matched => exact ⟨matched, sound⟩
  | behind behind => exact behind
  | exceeds exceeds => exact ⟨exceeds, sound⟩
  | _ => trivial

/-- A sound section keeps the indices in order. -/
theorem go_indexedFrom (indexed : srv.state.Indexed) (sound : section'.Sound srv)
    (moved : section'.go info srv = some (after, outputs, next)) :
    srv.state.IndexedFrom after.state := by
  by_cases quiet : section'.Quiet
  · have same := go_quiet quiet moved
    exact indexed.indexedFrom_of_kept (same.entries ▸ List.take_prefix _ _) same.commitIdx
      same.lastApplied
  have inside := indexed.inside
  have behind := indexed.applied
  cases section' with
  | replicate msg curTerm =>
      obtain ⟨rfl, -, -⟩ := next_eq_some.mp moved
      exact indexed.indexedFrom_of_kept (Server.kept_of_agrees sound.1 (sound.2 sound.1)) (by simp)
        (by simp)
  | writeCommit msg curTerm =>
      obtain ⟨rfl, -, -⟩ := next_eq_some.mp moved
      have greater : srv.state.commitIdx < msg.commitIdx := sound
      have raised : srv.state.commitIdx ≤ min msg.commitIdx (srv.state.entries.length - 1) ∧
          min msg.commitIdx (srv.state.entries.length - 1) < srv.state.entries.length := by omega
      exact indexed.indexedFrom (List.take_prefix _ _) raised
        ⟨Nat.le_refl _, behind.trans raised.1⟩
  | writeApplied entriesToApply answer =>
      obtain ⟨rfl, -, -⟩ := next_eq_some.mp moved
      exact indexed.indexedFrom (List.take_prefix _ _) ⟨Nat.le_refl _, inside⟩
        ⟨behind, Nat.le_refl _⟩
  | raiseCommit newCommitIdx =>
      obtain ⟨rfl, -, -⟩ := finish_eq_some.mp moved
      obtain ⟨greater, within⟩ := sound
      exact indexed.indexedFrom (List.take_prefix _ _) ⟨greater.le, within⟩
        ⟨Nat.le_refl _, behind.trans greater.le⟩
  | storeEntry msg term =>
      simp only [go] at moved
      split at moved
      · obtain ⟨rfl, -, -⟩ := finish_eq_some.mp moved
        exact indexed.refl
      · obtain ⟨rfl, -, -⟩ := finish_eq_some.mp moved
        refine indexed.indexedFrom_of_kept ?_ rfl rfl
        exact (List.take_prefix _ _).trans (List.prefix_append _ _)
  | assignIdentity target =>
      have same : after.state = srv.state := by
        cases target
        case candidate | leader => rw [(next_eq_some.mp moved).1]
        all_goals rw [(finish_eq_some.mp moved).1]
      rw [same]
      exact indexed.refl
  | reinitStates =>
      obtain ⟨rfl, -, -⟩ := finish_eq_some.mp moved
      exact indexed.refl
  | buildMessage target term commitIdx =>
      rw [(buildMessage_next moved).1]
      exact indexed.refl
  | _ => cases quiet rfl

/-- The first section of an event keeps the indices in order, and hands on what the next one relies
on. -/
theorem Begins.sound (begins : Begins info srv event after next) (indexed : srv.state.Indexed)
    (intact : ¬ srv.CutsCommitted event) (logged : ¬ srv.CommitsUnlogged info event) :
    srv.state.IndexedFrom after.state ∧ ∀ later ∈ next, later.Sound after := by
  cases begins with
  | plain same calm =>
      refine ⟨indexed.indexedFrom_of_kept (same.entries ▸ List.take_prefix _ _) same.commitIdx
        same.lastApplied, ?_⟩
      rintro _ ⟨⟩
      exact sound_of_calm calm
  | ends state =>
      rw [state]
      exact ⟨indexed.refl, by rintro _ ⟨⟩⟩
  | append =>
      refine ⟨indexed.refl, ?_⟩
      rintro _ ⟨⟩
      exact intact
  | transform queue =>
      rw [Server.leave_state]
      refine ⟨indexed.refl, ?_⟩
      rintro _ ⟨⟩
      trivial
  | @counted target node idx replicateNum _ known thread counter many state =>
      rw [state]
      refine ⟨indexed.refl, ?_⟩
      rintro _ ⟨⟩
      have counted := Server.countedIdx_of_counting known thread counter
      by_contra past
      rw [Sound, state] at past
      exact logged ⟨target, rfl, idx, counted, ⟨counted, _, counter, many⟩, Nat.le_of_not_lt past⟩
  | finished =>
      refine ⟨indexed.refl, ?_⟩
      rintro _ ⟨⟩
      trivial
  | whole taken =>
      exact ⟨Server.step_indexedFrom indexed taken intact logged, by rintro _ ⟨⟩⟩

end Section

namespace ThreadedCluster

variable {config : ClusterConfig} {before after : ThreadedCluster}
  {label : ServerId × Act Event}

/-- The indices of all servers point into their logs and have not decreased, and what they had
committed is still in their logs. -/
def KeepsIndices (before : ThreadedCluster) (_ : ServerId × Act Event)
    (after : ThreadedCluster) : Prop :=
  ∀ id, (before id).state.state.IndexedFrom (after id).state.state

/-- Nothing begins while a thread of the server is in the middle of its work, no append request that
begins conflicts with the committed part of a log, and no counting loop commits past its end. -/
def CommitsLogged (config : ClusterConfig) (before : ThreadedCluster)
    (label : ServerId × Act Event) (_ : ThreadedCluster) : Prop :=
  before.Undisturbed label ∧ before.Starts (fun id node event =>
    ¬ node.server.CutsCommitted event ∧ ¬ node.server.CommitsUnlogged (config.info id) event) label

instance (before : ThreadedCluster) (label : ServerId × Act Event) (after : ThreadedCluster) :
    Decidable (CommitsLogged config before label after) :=
  inferInstanceAs (Decidable (_ ∧ _))

/-- The indices of a server are in order, and at most one of its threads is in the middle of its
work and finds what it relies on. -/
structure Ordered (process : ServerProcess) : Prop where
  /-- The indices are in order. -/
  indexed : process.state.state.Indexed
  /-- What the thread relies on. -/
  sound : process.running = [] ∨ ∃ thread, process.running = [thread] ∧
    thread.next.Sound process.state

/-- One section of a server. -/
theorem Ordered.step {info : ServerInfo} {process later : ServerProcess} {act : Act Event}
    (ordered : Ordered process) (taken : process.step (Server.sections info) act = some later)
    (undisturbed : process.Undisturbed act)
    (logged : process.Starts (fun server _ event =>
      ¬ server.CutsCommitted event ∧ ¬ server.CommitsUnlogged info event) act) :
    process.state.state.IndexedFrom later.state.state ∧ Ordered later := by
  -- what is left to do is sound
  have ordered_of_sound : ∀ (next : Option Section) (thread : Section → ServerThread),
      (∀ section', (thread section').next = section') →
      later.running = (next.map thread).toList → later.state.state.Indexed →
      (∀ section' ∈ next, section'.Sound later.state) → Ordered later := by
    intro next thread same running indexed sound
    cases next with
    | none => exact ⟨indexed, .inl running⟩
    | some section' =>
        refine ⟨indexed, .inr ⟨thread section', running, ?_⟩⟩
        rw [same]
        exact sound section' rfl
  cases act with
  | start event =>
      obtain ⟨first, next, starts, -, running⟩ := Server.process_start taken undisturbed
      obtain ⟨keeps, sound⟩ := (Section.start_begins starts).sound ordered.indexed logged.1 logged.2
      exact ⟨keeps, ordered_of_sound next _ (fun _ => rfl) running keeps.toIndexed sound⟩
  | go position =>
      rcases ordered.sound with idle | ⟨thread, alone, sound⟩
      · obtain ⟨thread, present, -⟩ := Process.step_go.mp taken
        simp [idle] at present
      · obtain ⟨outputs, next, went, -, running⟩ := Server.process_go taken alone
        have keeps := Section.go_indexedFrom ordered.indexed sound went
        exact ⟨keeps, ordered_of_sound next _ (fun _ => rfl) running keeps.toIndexed
          fun later member => (Section.go_handsOn went later member).sound sound⟩

/-- One section in the cluster. -/
theorem keepsIndices_step (ordered : ∀ id, Ordered (before id))
    (taken : step config before label = some after)
    (logged : CommitsLogged config before label after) :
    KeepsIndices before label after ∧ ∀ id, Ordered (after id) := by
  obtain ⟨-, process, moved, rfl⟩ := step_eq_some.mp taken
  obtain ⟨keeps, later⟩ := (ordered label.1).step moved logged.1 logged.2
  refine ⟨fun id => ?_, fun id => ?_⟩
  all_goals by_cases same : id = label.1
  · subst same
    rwa [Function.update_self]
  · rw [Function.update_of_ne same]
    exact (ordered id).indexed.refl
  · subst same
    rwa [Function.update_self]
  · rw [Function.update_of_ne same]
    exact ordered id

theorem ordered_init (id : ServerId) : Ordered (init id) := ⟨indexed_init, .inl rfl⟩

/-- An event that gets stuck conflicts with nothing and commits nothing. -/
theorem logged_of_stuck {self : ServerId} {event : Event} {srv : Server}
    (taken : step config before (self, .start event) = some after)
    (same : (before self).state = srv)
    (disabled : srv.step (config.info self) event = none) :
    ¬ srv.CutsCommitted event ∧ ¬ srv.CommitsUnlogged (config.info self) event := by
  subst same
  obtain ⟨-, process, moved, -⟩ := step_eq_some.mp taken
  obtain ⟨-, result, starts, -⟩ := Process.step_start.mp moved
  obtain ⟨⟨_, _, _⟩, begins, -⟩ := Option.map_eq_some_iff.mp starts
  obtain ⟨target, term, rfl, -⟩ := Server.fails_of_start begins disabled
  exact ⟨fun ⟨_, asked, _⟩ => (nomatch asked), fun ⟨_, counting, _⟩ => (nomatch counting)⟩

/-- The sections of a steady run conflict with no committed part of a log and commit nothing past
its end. -/
theorem commitsLogged_of_steady {labels : List (ServerId × Act Event)}
    (steady : Execution.Along (step config) (Steady config) labels init) :
    Execution.Along (step config) (CommitsLogged config) labels init := by
  refine Execution.along_of_invariant (fun before label after
    (shown : ∃ cluster, Shown config before cluster ∧ Cluster.InOrder config cluster)
    (taken : step config before label = some after) (steady : Steady config before label after) =>
    ?_) ⟨_, shown_init config, Cluster.inOrder_init config⟩ steady
  obtain ⟨cluster, shown, inOrder⟩ := shown
  obtain ⟨undisturbed, steady⟩ := steady
  obtain ⟨self, act⟩ := label
  cases act with
  | start event =>
      have same : cluster self = (before self).node := shown.node_eq undisturbed
      rcases shown.start taken undisturbed with ⟨cluster', moved, later⟩ | ⟨disabled, later⟩
      · have steady' : Cluster.Steady config cluster (self, event) cluster' := by
          rw [Cluster.Steady, same]
          exact steady
        obtain ⟨kept, logged⟩ := inOrder.step moved steady'
        rw [Cluster.CommitsLogged, same] at logged
        exact ⟨⟨cluster', later, kept⟩, undisturbed, logged⟩
      · rw [same] at disabled
        exact ⟨⟨cluster, later, inOrder⟩, undisturbed, logged_of_stuck taken rfl disabled⟩
  | go position => exact ⟨⟨cluster, shown.go taken, inOrder⟩, undisturbed, trivial⟩

/-- A server whose indices stay in order until it comes to rest looks as if they had done so in one
step. -/
theorem Shown.indexedFrom {cluster : Cluster} {labels : List (ServerId × Act Event)}
    {now final : ThreadedCluster} {id : ServerId} (shown : Shown config now cluster)
    (indexed : (now id).state.state.Indexed)
    (undisturbed : Execution.Along (ThreadedCluster.step config)
      (fun before label _ => before.Undisturbed label) labels now)
    (keeps : Execution.Along (ThreadedCluster.step config) KeepsIndices labels now)
    (execution : Execution.run (ThreadedCluster.step config) labels now = some final)
    (rests : (final id).running = []) :
    (now id).state.state.IndexedFrom (cluster id).server.state := by
  induction labels generalizing now cluster with
  | nil =>
      obtain rfl := Option.some.inj execution
      rw [shown.node_eq rests]
      exact indexed.refl
  | cons label labels ih =>
      obtain ⟨after, taken, later⟩ := Option.bind_eq_some_iff.mp execution
      obtain ⟨calm, undisturbed⟩ := (Execution.along_cons taken).mp undisturbed
      obtain ⟨keep, keeps⟩ := (Execution.along_cons taken).mp keeps
      by_cases idle : (now id).running = []
      · rw [shown.node_eq idle]
        exact indexed.refl
      · have goes : ∃ cluster', Shown config after cluster' ∧ cluster' id = cluster id := by
          obtain ⟨self, act⟩ := label
          cases act with
          | start event =>
              rcases shown.start taken calm with ⟨cluster', moved, shown'⟩ | ⟨-, shown'⟩
              · obtain ⟨-, -, _, -, rfl⟩ := Cluster.step_eq_some.mp moved
                have other : id ≠ self := fun same => idle (same ▸ calm)
                exact ⟨_, shown', Function.update_of_ne other _ _⟩
              · exact ⟨cluster, shown', rfl⟩
          | go position => exact ⟨cluster, shown.go taken, rfl⟩
        obtain ⟨cluster', shown', same⟩ := goes
        have rest := ih shown' (keep id).toIndexed undisturbed keeps later
        rw [same] at rest
        exact (keep id).trans rest indexed.inside

/-- If the indices stay in order along an undisturbed run at whose end nothing is going on, nothing
in it conflicts with the committed part of a log or commits past its end. -/
theorem commitsLogged_of_keepsIndices {cluster : Cluster}
    {labels : List (ServerId × Act Event)} {now final : ThreadedCluster}
    (shown : Shown config now cluster) (indexed : ∀ id, (now id).state.state.Indexed)
    (undisturbed : Execution.Along (step config)
      (fun before label _ => before.Undisturbed label) labels now)
    (keeps : Execution.Along (step config) KeepsIndices labels now)
    (execution : Execution.run (step config) labels now = some final)
    (rests : ∀ id, (final id).running = []) :
    Execution.Along (step config) (CommitsLogged config) labels now := by
  induction labels generalizing now cluster with
  | nil => trivial
  | cons label labels ih =>
      obtain ⟨after, taken, later⟩ := Option.bind_eq_some_iff.mp execution
      obtain ⟨calm, calmLater⟩ := (Execution.along_cons taken).mp undisturbed
      obtain ⟨keep, keepsLater⟩ := (Execution.along_cons taken).mp keeps
      rw [Execution.along_cons taken]
      have indexed' : ∀ id, (after id).state.state.Indexed := fun id => (keep id).toIndexed
      obtain ⟨self, act⟩ := label
      cases act with
      | go position =>
          exact ⟨⟨calm, trivial⟩, ih (shown.go taken) indexed' calmLater keepsLater later⟩
      | start event =>
          have same : cluster self = (now self).node := shown.node_eq calm
          rcases shown.start taken calm with ⟨cluster', moved, shown'⟩ | ⟨disabled, shown'⟩
          · refine ⟨⟨calm, ?_⟩, ih shown' indexed' calmLater keepsLater later⟩
            have whole := (keep self).trans
              (shown'.indexedFrom (indexed' self) calmLater keepsLater later (rests self))
              (indexed self).inside
            obtain ⟨-, -, result, whole', rfl⟩ := Cluster.step_eq_some.mp moved
            rw [Function.update_self] at whole
            rw [same] at whole'
            exact ⟨Server.not_cutsCommitted (indexed self) whole' whole.kept,
              Server.not_commitsUnlogged (indexed self) whole' whole.inside⟩
          · rw [same] at disabled
            exact ⟨⟨calm, logged_of_stuck taken rfl disabled⟩,
              ih shown' indexed' calmLater keepsLater later⟩

/-- The indices of all servers stay in order along a run in which nothing begins while a thread of
the server is in the middle of its work, no append request conflicts with the committed part of a
log and no counting loop commits past the end of the log.  Where nothing begins in the middle and
nothing goes on at the end, they stay in order only then.  In particular they do in every run of
steady sections. -/
theorem keepsIndices_iff (config : ClusterConfig) (labels : List (ServerId × Act Event)) :
    (Execution.Along (step config) (CommitsLogged config) labels init →
        Execution.Along (step config) KeepsIndices labels init) ∧
      (∀ final, Execution.run (step config) labels init = some final →
        (∀ id, (final id).running = []) →
        Execution.Along (step config) (fun before label _ => before.Undisturbed label) labels init →
        Execution.Along (step config) KeepsIndices labels init →
        Execution.Along (step config) (CommitsLogged config) labels init) ∧
      (Execution.Along (step config) (Steady config) labels init →
        Execution.Along (step config) KeepsIndices labels init) := by
  have preserved := fun (before : ThreadedCluster) label after
    (ordered : ∀ id, Ordered (before id)) (taken : step config before label = some after)
    (logged : CommitsLogged config before label after) =>
    (keepsIndices_step ordered taken logged).symm
  have enough : Execution.Along (step config) (CommitsLogged config) labels init →
      Execution.Along (step config) KeepsIndices labels init :=
    Execution.along_of_invariant preserved ordered_init
  exact ⟨enough, fun _ execution rests undisturbed keeps =>
    commitsLogged_of_keepsIndices (shown_init config) (fun _ => indexed_init) undisturbed keeps
      execution rests, fun steady => enough (commitsLogged_of_steady steady)⟩

open Cluster (firstRequest firstElection commandsMessage twoCommits firstCommand secondCommand
  rivalReplication)

/-- Server 1 commits two commands with server 2. -/
def twoCommands : List (ServerId × Act Event) :=
  seriallyAt (firstElection ++ twoCommits)
    [1, 10, 5, 2, 2, 3, 0, 3, 0, 0, 2, 8, 0, 2, 2, 4, 0, 2, 12]

/-- After that server 3 overwrites them at server 2. -/
def overwritten : List (ServerId × Act Event) :=
  seriallyAt (firstElection ++ twoCommits ++ rivalReplication)
    [1, 10, 5, 2, 2, 3, 0, 3, 0, 0, 2, 8, 0, 2, 2, 4, 0, 2, 12, 1, 10, 1, 10, 5, 2, 2, 3, 0, 0, 2,
      8]

/-- The vote request of server 3 once it holds both commands. -/
def heirRequest : RequestVoteMessage :=
  { term := 2, candidateId := localServer 3, lastLogIdx := 2, lastLogTerm := 1 }

/-- Both commands, sent by server 3 in term 2. -/
def heirMessage (commitIdx : Nat) : AppendEntriesMessage :=
  { commandsMessage with term := 2, leaderId := localServer 3, commitIdx }

/-- Server 1 has stored two commands, which server 2 has acknowledged, but has counted none of them.
Server 3, which has them too, is elected in term 2, counts the first one, and sends them to server
1. -/
def inheritance : List (ServerId × Act Event) :=
  seriallyAt (firstElection ++
    [(localServer 1, .rpcAddLog firstCommand), (localServer 1, .addLogState),
      (localServer 1, .rpcAddLog secondCommand), (localServer 1, .addLogState),
      (localServer 1, .startAppending (localServer 2)),
      (localServer 1, .sendAppendEntries (localServer 2)),
      (localServer 2, .rpcAppendEntries commandsMessage),
      (localServer 1, .startAppending (localServer 3)),
      (localServer 1, .sendAppendEntries (localServer 3)),
      (localServer 3, .rpcAppendEntries commandsMessage),
      (localServer 1, .receiveAppendReply (localServer 2) commandsMessage (1, true)),
      (localServer 3, .timeout), (localServer 3, .transform),
      (localServer 3, .timeout), (localServer 3, .transform),
      (localServer 2, .rpcRequestVote heirRequest),
      (localServer 3, .receiveVote (localServer 2) heirRequest (2, true)),
      (localServer 3, .transform), (localServer 3, .startAppending (localServer 2)),
      (localServer 3, .sendAppendEntries (localServer 2)),
      (localServer 2, .rpcAppendEntries (heirMessage 0)),
      (localServer 3, .receiveAppendReply (localServer 2) (heirMessage 0) (2, true)),
      (localServer 3, .countReplica (localServer 2)),
      (localServer 3, .startAppending (localServer 1)),
      (localServer 3, .sendAppendEntries (localServer 1))])
    [1, 10, 5, 2, 2, 3, 0, 3, 0, 0, 2, 8, 0, 2, 8, 0, 1, 10, 1, 10, 5, 2, 2, 0, 2, 8, 0, 2, 0, 2]

/-- Server 1 is in step 5, and has found the greater commit index of the message, when its counting
loop commits both commands. -/
def lostCommit : List (ServerId × Act Event) :=
  sectionsAt (localServer 1)
    [.start (.rpcAppendEntries (heirMessage 1)), .go 0, .go 0, .go 0, .go 0, .go 0, .go 0,
      .start (.countReplica (localServer 2)), .go 1, .go 1,
      .start (.countReplica (localServer 2)), .go 1, .go 1, .go 0]

theorem keepsIndices_two_commands :
    (Execution.run (step trio) twoCommands init).isSome ∧
      Execution.Along (step trio) KeepsIndices twoCommands init :=
  ⟨by decide +kernel, (keepsIndices_iff trio twoCommands).2.2 (by decide +kernel)⟩

/-- Server 2 cuts its log at its first committed entry, and its commit index points past the end.
The commit index of server 1 goes back in step 5, though nothing that begins conflicts with what is
committed. -/
theorem keepsIndices_counterexample :
    ((Execution.run (step trio) overwritten init).isSome ∧
      ¬ Execution.Along (step trio) KeepsIndices overwritten init) ∧
    Execution.Along (step trio) (fun before label _ => before.Starts (fun id node event =>
        ¬ node.server.CutsCommitted event ∧ ¬ node.server.CommitsUnlogged (trio.info id) event)
          label) (inheritance ++ lostCommit) init ∧
      (Execution.run (step trio) (inheritance ++ lostCommit) init).isSome ∧
      ¬ Execution.Along (step trio) KeepsIndices (inheritance ++ lostCommit) init := by
  have past : ¬ Execution.Along (step trio)
      (fun _ _ after => (after (localServer 2)).state.state.commitIdx <
        (after (localServer 2)).state.state.entries.length) overwritten init := by
    decide +kernel
  have back : ¬ Execution.Along (step trio)
      (fun before _ after => (before (localServer 1)).state.state.commitIdx ≤
        (after (localServer 1)).state.state.commitIdx) (inheritance ++ lostCommit) init := by
    decide +kernel
  exact ⟨⟨by decide +kernel, fun keeps => past (keeps.mono fun _ _ _ holds => (holds _).inside)⟩,
    by decide +kernel, by decide +kernel,
    fun keeps => back (keeps.mono fun _ _ _ holds => (holds _).commits)⟩

end ThreadedCluster

end Quintet
