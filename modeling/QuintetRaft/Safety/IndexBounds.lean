import QuintetRaft.Safety.StateMachine

/-!
# Indices and the log

A server's indices point into its log, in order, and what it has committed stays there, unless an
append request conflicts with the committed part of the log or a counting loop runs past its end.
Neither happens in a run of steady steps.
-/

namespace Quintet

/-- The indices of a server point into its log, in order, and the log starts with the sentinel. -/
structure ServerState.Indexed (state : ServerState) : Prop where
  /-- Only committed entries have been applied. -/
  applied : state.lastApplied ≤ state.commitIdx
  /-- The commit index points into the log. -/
  inside : state.commitIdx < state.entries.length
  /-- The log starts with the sentinel. -/
  sentinel : state.entries[0]? = some ({} : LogEntry)

theorem indexed_init : ServerState.Indexed {} := ⟨Nat.le_refl 0, Nat.one_pos, rfl⟩

/-- A server's indices still point into its log, have not decreased, and what was committed is
still there. -/
structure ServerState.IndexedFrom (before after : ServerState) : Prop extends after.Indexed where
  /-- The commit index does not decrease. -/
  commits : before.commitIdx ≤ after.commitIdx
  /-- Nor does the index of the last applied entry. -/
  applies : before.lastApplied ≤ after.lastApplied
  /-- The log is neither cut nor rewritten up to the commit index. -/
  kept : before.entries.take (before.commitIdx + 1) <+: after.entries

theorem ServerState.IndexedFrom.trans {before state after : ServerState}
    (first : before.IndexedFrom state) (second : state.IndexedFrom after)
    (inside : before.commitIdx < before.entries.length) : before.IndexedFrom after :=
  { second with
    commits := first.commits.trans second.commits
    applies := first.applies.trans second.applies
    kept := by
      refine List.IsPrefix.trans ?_ second.kept
      have short : (before.entries.take (before.commitIdx + 1)).length = before.commitIdx + 1 :=
        List.length_take_of_le inside
      rw [List.prefix_iff_eq_take.mp first.kept, short]
      exact List.take_prefix_take_left (Nat.succ_le_succ first.commits) }

theorem ServerState.Indexed.refl {state : ServerState} (indexed : state.Indexed) :
    state.IndexedFrom state :=
  { indexed with commits := Nat.le_refl _, applies := Nat.le_refl _, kept := List.take_prefix _ _ }

/-- What is committed at an index stays there. -/
theorem getElem?_of_kept {entries later : List LogEntry} {commitIdx idx : Nat}
    (kept : entries.take (commitIdx + 1) <+: later) (inside : commitIdx < entries.length)
    (upTo : idx ≤ commitIdx) : later[idx]? = entries[idx]? := by
  have present := List.getElem?_eq_getElem (Nat.lt_of_le_of_lt upTo inside)
  rw [present]
  refine getElem?_of_prefix kept ?_
  rw [List.getElem?_take_of_lt (Nat.lt_succ_of_le upTo), present]

/-- Indices stay in order when the log keeps its committed part. -/
theorem ServerState.Indexed.indexedFrom {before after : ServerState} (indexed : before.Indexed)
    (kept : before.entries.take (before.commitIdx + 1) <+: after.entries)
    (commits : before.commitIdx ≤ after.commitIdx ∧ after.commitIdx < after.entries.length)
    (applies : before.lastApplied ≤ after.lastApplied ∧ after.lastApplied ≤ after.commitIdx) :
    before.IndexedFrom after where
  applied := applies.2
  inside := commits.2
  sentinel := (getElem?_of_kept kept indexed.inside (Nat.zero_le _)).trans indexed.sentinel
  commits := commits.1
  applies := applies.1
  kept := kept

/-- They do when only the rest of the log changes. -/
theorem ServerState.Indexed.indexedFrom_of_kept {before after : ServerState}
    (indexed : before.Indexed)
    (kept : before.entries.take (before.commitIdx + 1) <+: after.entries)
    (commitIdx : after.commitIdx = before.commitIdx)
    (lastApplied : after.lastApplied = before.lastApplied) : before.IndexedFrom after := by
  have fits := kept.length_le
  rw [List.length_take_of_le indexed.inside] at fits
  have behind := indexed.applied
  exact indexed.indexedFrom kept (by omega) (by omega)

namespace Server

variable {info : ServerInfo} {srv : Server} {event : Event} {result : Server × List Output}

/-- An append request that agrees with the committed part of the log keeps it. -/
theorem kept_of_agrees {msg : AppendEntriesMessage}
    (matched : termAt srv.state.entries msg.prevLogIdx = some msg.prevLogTerm)
    (agrees : ∀ idx < msg.logEntries.length, msg.prevLogIdx + 1 + idx ≤ srv.state.commitIdx →
      AgreesAt srv.state.entries msg idx) :
    srv.state.entries.take (srv.state.commitIdx + 1) <+: (srv.state.replicate msg).entries := by
  have appended := replicate_appended (lt_length_of_termAt matched)
  by_cases all : ∀ idx < msg.logEntries.length, AgreesAt srv.state.entries msg idx
  · rw [appended.same all]
    exact List.take_prefix _ _
  · -- the committed part ends before the first conflict
    have within : srv.state.commitIdx - msg.prevLogIdx ≤ msg.logEntries.length := by
      by_contra past
      exact all fun idx inMessage => agrees idx inMessage (by omega)
    have same := appended.keeps _ within fun idx early => agrees idx (by omega) (by omega)
    have upTo : srv.state.commitIdx + 1 ≤
        msg.prevLogIdx + 1 + (srv.state.commitIdx - msg.prevLogIdx) := by omega
    exact (List.take_prefix_take_left upTo).trans (same ▸ List.take_prefix _ _)

/-- A step that does not conflict with the committed part of the log keeps it. -/
theorem step_kept (taken : step info srv event = some result)
    (intact : ¬ srv.CutsCommitted event) :
    srv.state.entries.take (srv.state.commitIdx + 1) <+: result.1.state.entries := by
  rw [step_entries taken]
  cases event with
  | rpcAppendEntries msg =>
      simp only [entriesAfter]
      split_ifs with accepts
      · refine kept_of_agrees accepts.2.2 fun idx inMessage upTo => ?_
        by_contra conflict
        exact intact ⟨msg, rfl, accepts, idx, inMessage, conflict, upTo⟩
      · exact List.take_prefix _ _
  | rpcAddLog msg =>
      simp only [entriesAfter]
      split_ifs
      · exact (List.take_prefix _ _).trans (List.prefix_append _ _)
      · exact List.take_prefix _ _
  | _ => exact List.take_prefix _ _

/-- A step that keeps the committed part of the log does not conflict with it. -/
theorem not_cutsCommitted (indexed : srv.state.Indexed)
    (taken : step info srv event = some result)
    (kept : srv.state.entries.take (srv.state.commitIdx + 1) <+: result.1.state.entries) :
    ¬ srv.CutsCommitted event := by
  rintro ⟨msg, asked, accepts, idx, inMessage, conflict, upTo⟩
  cases event with
  | rpcAppendEntries request =>
      obtain rfl : request = msg := by simpa [Event.appendRequest] using asked
      have same := getElem?_of_kept kept indexed.inside upTo
      rw [step_entries taken, entriesAfter, if_pos accepts] at same
      have appended := replicate_appended (lt_length_of_termAt accepts.2.2)
      have later := appended.terms idx inMessage
      rw [AgreesAt, termAt, same] at later
      exact conflict later
  | _ => simp [Event.appendRequest] at asked

/-- Unless one of the two kinds of steps happens, the indices stay in order. -/
theorem step_indexedFrom (indexed : srv.state.Indexed)
    (taken : step info srv event = some result) (intact : ¬ srv.CutsCommitted event)
    (logged : ¬ srv.CommitsUnlogged info event) : srv.state.IndexedFrom result.1.state := by
  have kept := step_kept taken intact
  have fits := kept.length_le
  rw [List.length_take_of_le indexed.inside] at fits
  have commits : srv.state.commitIdx ≤ result.1.state.commitIdx ∧
      result.1.state.commitIdx < result.1.state.entries.length := by
    rcases step_commitIdx taken with
      still | ⟨msg, rfl, accepts, raised, reached⟩ | ⟨target, idx, rfl, counted, raised, reached⟩
    · omega
    · omega
    · have unchanged : result.1.state.entries = srv.state.entries := step_entries taken
      have inLog : idx < srv.state.entries.length := by
        by_contra past
        exact logged ⟨target, rfl, idx, counted.1, counted, Nat.le_of_not_lt past⟩
      rw [reached, unchanged]
      exact ⟨raised.le, inLog⟩
  have applies : srv.state.lastApplied ≤ result.1.state.lastApplied ∧
      result.1.state.lastApplied ≤ result.1.state.commitIdx := by
    have behind := indexed.applied
    rcases step_handsOver taken with ⟨idle, -⟩ | ⟨ahead, caughtUp, -⟩
    · omega
    · omega
  exact indexed.indexedFrom kept commits applies

/-- A counting loop that runs past the end of the log takes the commit index with it. -/
theorem not_commitsUnlogged (indexed : srv.state.Indexed)
    (taken : step info srv event = some result)
    (inside : result.1.state.commitIdx < result.1.state.entries.length) :
    ¬ srv.CommitsUnlogged info event := by
  rintro ⟨target, counting, idx, counted, ⟨-, replicateNum, counter, many⟩, past⟩
  cases event with
  | countReplica other =>
      obtain rfl : other = target := by simpa [Event.counting] using counting
      have unchanged : result.1.state.entries = srv.state.entries := step_entries taken
      obtain ⟨node, cursor, known, thread, rfl⟩ := step_countReplica.mp taken
      obtain rfl : cursor = idx := by
        rw [Option.mem_def] at counted
        simp only [countedIdx, known, Option.bind_some, thread] at counted
        split_ifs at counted
        exact Option.some.inj counted
      have raised := indexed.inside
      simp only [countReplica, Option.mem_def.mp counter, if_pos many, raiseCommit,
        setNode_state] at inside
      omega
  | _ => simp [Event.counting] at counting

end Server

namespace Cluster

variable {config : ClusterConfig} {before after : Cluster} {label : ServerId × Event}

/-- The indices of all servers point into their logs and have not decreased, and what they had
committed is still in their logs. -/
def KeepsIndices (before : Cluster) (_ : ServerId × Event) (after : Cluster) : Prop :=
  ∀ id, (before id).server.state.IndexedFrom (after id).server.state

/-- No append request conflicts with the committed part of a log, and no counting loop commits past
the end of the log. -/
def CommitsLogged (config : ClusterConfig) (before : Cluster) (label : ServerId × Event)
    (_ : Cluster) : Prop :=
  ¬ (before label.1).server.CutsCommitted label.2 ∧
    ¬ (before label.1).server.CommitsUnlogged (config.info label.1) label.2

instance (before : Cluster) (label : ServerId × Event) (after : Cluster) :
    Decidable (CommitsLogged config before label after) :=
  inferInstanceAs (Decidable (_ ∧ _))

/-- A step keeps the indices in order exactly when it is of neither kind. -/
theorem keepsIndices_step_iff (indexed : ∀ id, (before id).server.state.Indexed)
    (taken : step config before label = some after) :
    KeepsIndices before label after ↔ CommitsLogged config before label after := by
  constructor
  · intro keeps
    obtain ⟨-, -, result, moved, rfl⟩ := step_eq_some.mp taken
    have acting := keeps label.1
    rw [Function.update_self] at acting
    exact ⟨Server.not_cutsCommitted (indexed label.1) moved acting.kept,
      Server.not_commitsUnlogged (indexed label.1) moved acting.inside⟩
  · rintro ⟨intact, logged⟩ id
    exact forall_step taken
      (fun id node => (before id).server.state.IndexedFrom node.server.state)
      (fun id _ => (indexed id).refl)
      (fun _ _ moved => Server.step_indexedFrom (indexed label.1) moved intact logged) id

/-- A steady step neither conflicts with the committed part of a log nor commits past its end. -/
theorem Steady.commitsLogged {history : Leadership.History ServerId LogEntry}
    (simulates : Simulates config history before)
    (indexed : ∀ id, (before id).server.state.Indexed)
    (taken : step config before label = some after) (steady : Steady config before label after) :
    CommitsLogged config before label after := by
  obtain ⟨-, delivered, result, moved, -⟩ := step_eq_some.mp taken
  obtain ⟨self, event⟩ := label
  refine ⟨?_, ?_⟩
  · refine Server.not_cutsCommitted (indexed self) moved ?_
    rw [(simulates.committed_prefix delivered moved steady).2]
    exact List.take_prefix _ _
  · rintro ⟨target, counting, idx, counted, commits, past⟩
    cases event with
    | countReplica other =>
        obtain rfl : other = target := by simpa [Event.counting] using counting
        refine steady.2 ⟨other, rfl, idx, counted, commits, ?_, ?_⟩
        · exact Nat.lt_of_lt_of_le (indexed self).inside past
        · rw [termAt_eq_none.mpr past]
          simp
    | _ => simp [Event.counting] at counting

/-- What holds of the servers in a run of steady steps. -/
structure InOrder (config : ClusterConfig) (cluster : Cluster) : Prop where
  /-- Leaders have been elected. -/
  record : SenderRecord config cluster
  /-- There is a history of terms. -/
  simulates : ∃ history, Simulates config history cluster
  /-- Indices are in order. -/
  indexed : ∀ id, (cluster id).server.state.Indexed

theorem inOrder_init (config : ClusterConfig) : InOrder config init where
  record := senderRecord_init
  simulates := ⟨_, simulates_init config⟩
  indexed _ := indexed_init

theorem InOrder.step (inOrder : InOrder config before)
    (taken : Cluster.step config before label = some after)
    (steady : Steady config before label after) :
    InOrder config after ∧ CommitsLogged config before label after := by
  obtain ⟨history, simulates⟩ := inOrder.simulates
  have logged := steady.commitsLogged simulates inOrder.indexed taken
  have keeps := (keepsIndices_step_iff inOrder.indexed taken).mpr logged
  obtain ⟨later, -, simulated⟩ := simulates.step inOrder.record taken steady
  exact
    ⟨{ record := inOrder.record.step taken (steady.electsSafely inOrder.record taken)
       simulates := ⟨later, simulated⟩
       indexed := fun id => (keeps id).toIndexed }, logged⟩

/-- Another command of the client of server 1. -/
def secondCommand : AddLogMessage :=
  { opName := "add", args := "2", prmIdx := 2, srvId := localServer 1 }

/-- The message that carries both commands of the client of server 1. -/
def commandsMessage : AppendEntriesMessage :=
  { term := 1
    leaderId := localServer 1
    logEntries := [Server.logEntry firstCommand 1, Server.logEntry secondCommand 1] }

/-- Server 1 stores two commands, commits them with server 2, and tells it so. -/
def twoCommits : List (ServerId × Event) :=
  [(localServer 1, .rpcAddLog firstCommand), (localServer 1, .addLogState),
    (localServer 1, .rpcAddLog secondCommand), (localServer 1, .addLogState),
    (localServer 1, .startAppending (localServer 2)),
    (localServer 1, .sendAppendEntries (localServer 2)),
    (localServer 2, .rpcAppendEntries commandsMessage),
    (localServer 1, .receiveAppendReply (localServer 2) commandsMessage (1, true)),
    (localServer 1, .countReplica (localServer 2)), (localServer 1, .countReplica (localServer 2)),
    (localServer 1, .countReplica (localServer 2)),
    (localServer 1, .startAppending (localServer 2)),
    (localServer 1, .sendAppendEntries (localServer 2)),
    (localServer 2, .rpcAppendEntries
      { term := 1, leaderId := localServer 1, prevLogIdx := 2, prevLogTerm := 1, commitIdx := 2 })]

/-- Server 3 is elected in term 2 with an empty log, stores a command and replicates it to server
2. -/
def rivalReplication : List (ServerId × Event) :=
  [(localServer 3, .timeout), (localServer 3, .transform),
    (localServer 3, .timeout), (localServer 3, .transform),
    (localServer 2, .rpcRequestVote (firstRequest 2 (localServer 3))),
    (localServer 3, .receiveVote (localServer 2) (firstRequest 2 (localServer 3)) (2, true)),
    (localServer 3, .transform), (localServer 3, .rpcAddLog rivalCommand),
    (localServer 3, .addLogState), (localServer 3, .startAppending (localServer 2)),
    (localServer 3, .sendAppendEntries (localServer 2)),
    (localServer 2, .rpcAppendEntries
      { term := 2, leaderId := localServer 3, logEntries := [Server.logEntry rivalCommand 2] })]

end Cluster

end Quintet
