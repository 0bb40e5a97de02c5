import QuintetRaft.Library.Occurrences
import QuintetRaft.Model.Interface

/-!
# Storing commands

What a leader makes of a sequence of commands.  The scan of `addLog` for a command that is there
already goes over the whole log, and the sentinel has the key of a command, too.
-/

namespace Quintet

namespace Server

/-! ## A sequence of commands -/

/-- `IdentityLeader::Impl::addLog` from beginning to end. -/
def wholeAddLog (info : ServerInfo) (msg : AddLogMessage) (srv : Server) :
    Server × List Output :=
  let stored := srv.addLog info msg
  match stored.1.leader.addingLog with
  | some adding =>
      let counted := stored.1.addLogState info adding
      (counted.1, stored.2 ++ counted.2)
  | none => stored

/-- A leader handles commands one after the other. -/
def addLogs (info : ServerInfo) : List AddLogMessage → Server → Server × List Output
  | [], srv => (srv, [])
  | msg :: msgs, srv =>
      let first := srv.wholeAddLog info msg
      let rest := addLogs info msgs first.1
      (rest.1, first.2 ++ rest.2)

variable {info : ServerInfo} {srv : Server} {msg : AddLogMessage} {msgs : List AddLogMessage}

theorem wholeAddLog_of_held (idle : srv.leader.addingLog = none)
    (held : holdsOperation srv.state msg) :
    srv.wholeAddLog info msg =
      (srv, [.addLogReply msg { success := true, leaderId := info.localId }]) := by
  simp [wholeAddLog, addLog, held, idle]

theorem wholeAddLog_of_new (new : ¬ holdsOperation srv.state msg) :
    srv.wholeAddLog info msg = (srv.addLog info msg).1.addLogState info msg := by
  simp [wholeAddLog, addLog, new, addLogState]

/-- A command that the leader has already is handled in one step of the leader. -/
theorem step_of_held (role : srv.identity = .leader) (idle : srv.leader.addingLog = none)
    (held : holdsOperation srv.state msg) :
    srv.step info (.rpcAddLog msg) = some (srv.wholeAddLog info msg) := by
  rw [wholeAddLog_of_held idle held]
  exact step_rpcAddLog.mpr ⟨idle, by simp [rpcAddLog, role, addLog, held]⟩

/-- A command that it stores is handled in two. -/
theorem steps_of_new (role : srv.identity = .leader) (idle : srv.leader.addingLog = none)
    (free : srv.noneCounting info) (new : ¬ holdsOperation srv.state msg) :
    ∃ stored, srv.step info (.rpcAddLog msg) = some (stored, []) ∧
      stored.step info .addLogState = some (srv.wholeAddLog info msg) := by
  refine ⟨(srv.addLog info msg).1, step_rpcAddLog.mpr ⟨idle, ?_⟩,
    step_addLogState.mpr ⟨msg, ?_, ?_, wholeAddLog_of_new new⟩⟩
  · simp [rpcAddLog, role, addLog, new]
  · simp [addLog, new]
  · simpa [addLog, new, noneCounting, pushEntry] using free

/-! ## What is stored -/

/-- The keys of all entries of the log. -/
def keys (srv : Server) : List (ServerId × PrmIdx) := srv.state.entries.map LogEntry.key

/-- The keys of the real entries, which are those after the sentinel. -/
def realKeys (srv : Server) : List (ServerId × PrmIdx) :=
  (srv.state.entries.drop 1).map LogEntry.key

/-- The key of the sentinel. -/
def sentinelKey (srv : Server) : ServerId × PrmIdx :=
  (srv.state.entries.head srv.state.entries_ne).key

/-- Every command is acknowledged, and stored unless a real entry, or an earlier command, has its
key. -/
structure StoresOnce (info : ServerInfo) (msgs : List AddLogMessage) (before : Server)
    (result : Server × List Output) : Prop where
  /-- All replies name the leader. -/
  replies : result.2 =
    msgs.map fun msg => .addLogReply msg { success := true, leaderId := info.localId }
  /-- The log grows by the commands that occur for the first time, in the leader's term. -/
  entries : result.1.state.entries = before.state.entries ++
    (Occurrences.first AddLogMessage.key before.realKeys msgs).map
      (logEntry · before.state.currentTerm)
  /-- There is a counter for each entry. -/
  logStates : result.1.leader.logStates.length = result.1.state.entries.length

theorem keys_eq (srv : Server) : srv.keys = srv.sentinelKey :: srv.realKeys := by
  rw [keys, sentinelKey, realKeys, ← List.map_cons, List.drop_one, List.cons_head_tail]

theorem holdsOperation_iff_mem_keys : holdsOperation srv.state msg ↔ msg.key ∈ srv.keys := by
  rw [holdsOperation_iff, keys, List.mem_map]

theorem logEntry_injective (term : Nat) : Function.Injective (logEntry · term) := by
  intro left right same
  obtain ⟨-, opName, args, prmIdx, srvId⟩ := LogEntry.mk.inj same
  cases left
  cases right
  simp_all

/-- What `addLog` does to the log and to the counters. -/
theorem wholeAddLog_spec (info : ServerInfo) (msg : AddLogMessage)
    (idle : srv.leader.addingLog = none) :
    (srv.wholeAddLog info msg).2 =
        [.addLogReply msg { success := true, leaderId := info.localId }] ∧
      (srv.wholeAddLog info msg).1.leader.addingLog = none ∧
      (srv.wholeAddLog info msg).1.state.currentTerm = srv.state.currentTerm ∧
      ∃ added : List LogEntry,
        added = (if msg.key ∈ srv.keys then [] else [logEntry msg srv.state.currentTerm]) ∧
        (srv.wholeAddLog info msg).1.state.entries = srv.state.entries ++ added ∧
        (srv.wholeAddLog info msg).1.leader.logStates.length =
          srv.leader.logStates.length + added.length := by
  by_cases held : holdsOperation srv.state msg
  · rw [wholeAddLog_of_held idle held]
    exact ⟨rfl, idle, rfl, [], by simp [holdsOperation_iff_mem_keys.mp held], by simp, by simp⟩
  · rw [wholeAddLog_of_new held]
    have new := mt holdsOperation_iff_mem_keys.mpr held
    refine ⟨rfl, rfl, by simp [addLogState, addLog, held, pushEntry],
      [logEntry msg srv.state.currentTerm], by simp [new], ?_, ?_⟩
    · simp [addLogState, addLog, held, pushEntry]
    · simp [addLogState, addLog, held, pushEntry]

/-- A sequence of commands: stored are those whose key occurs for the first time, the key of the
sentinel counting as seen. -/
theorem addLogs_spec (info : ServerInfo) (msgs : List AddLogMessage)
    (idle : srv.leader.addingLog = none) :
    (srv.addLogs info msgs).2 =
        msgs.map (fun msg => .addLogReply msg { success := true, leaderId := info.localId }) ∧
      (srv.addLogs info msgs).1.state.entries = srv.state.entries ++
        (Occurrences.first AddLogMessage.key srv.keys msgs).map
          (logEntry · srv.state.currentTerm) ∧
      (srv.addLogs info msgs).1.leader.logStates.length + srv.state.entries.length =
        srv.leader.logStates.length + (srv.addLogs info msgs).1.state.entries.length := by
  induction msgs generalizing srv with
  | nil => simp [addLogs, Occurrences.first]
  | cons msg msgs ih =>
      obtain ⟨replied, later, sameTerm, added, equal, entries, logStates⟩ :=
        wholeAddLog_spec info msg idle
      obtain ⟨replies, grown, counted⟩ := ih later
      rw [sameTerm] at grown
      refine ⟨?_, ?_, ?_⟩
      · simp only [addLogs, replied, replies, List.map_cons, List.singleton_append]
      · have keys : ∀ name, name ∈ (srv.wholeAddLog info msg).1.keys ↔
            name ∈ srv.keys ∨ name ∈ added.map LogEntry.key := by
          simp [Server.keys, entries]
        simp only [addLogs, Occurrences.first]
        rw [grown, entries, List.append_assoc]
        congr 1
        by_cases seen : msg.key ∈ srv.keys
        · rw [if_pos seen] at equal
          subst equal
          simp only [seen, if_true, List.nil_append]
          rw [Occurrences.first_congr fun name => by simpa using keys name]
        · rw [if_neg seen] at equal
          subst equal
          simp only [seen, if_false, List.map_cons, List.singleton_append]
          rw [Occurrences.first_congr fun name => (keys name).trans ?_]
          simp [or_comm, logEntry, LogEntry.key, AddLogMessage.key]
      · rw [logStates, entries, List.length_append] at counted
        simp only [addLogs]
        omega

/-- Every command of a sequence is stored once exactly when none has the key of the sentinel, unless
a real entry has it, too. -/
theorem addLogs_storesOnce_iff (idle : srv.leader.addingLog = none)
    (counted : srv.leader.logStates.length = srv.state.entries.length) :
    StoresOnce info msgs srv (srv.addLogs info msgs) ↔
      ∀ msg ∈ msgs, msg.key = srv.sentinelKey → srv.sentinelKey ∈ srv.realKeys := by
  obtain ⟨replies, entries, logStates⟩ := addLogs_spec info msgs idle
  rw [← Occurrences.first_cons_eq_iff, ← keys_eq]
  constructor
  · intro stores
    have same := entries.symm.trans stores.entries
    exact (logEntry_injective _).list_map (List.append_cancel_left same)
  · intro same
    exact ⟨replies, by rw [entries, same], by omega⟩

/-- A leader with an empty log. -/
def emptyLeader : Server :=
  { state := { currentTerm := 1 }
    identity := .leader
    leader := { logStates := [1] } }

/-- The first command of the test `AddLog`. -/
def firstTestCommand : AddLogMessage := { opName := "test", srvId := nullServerId }

/-- The command of a client, twice, among others. -/
def repeatedCommands : List AddLogMessage :=
  [{ opName := "op", srvId := localServer 1 }, { opName := "test", prmIdx := 1 },
    { opName := "op", srvId := localServer 1 }]

theorem addLogs_storesOnce_repeated :
    StoresOnce alone repeatedCommands emptyLeader (emptyLeader.addLogs alone repeatedCommands) :=
  (addLogs_storesOnce_iff rfl rfl).mpr (by decide)

/-- The first command of the test is acknowledged and not stored. -/
theorem addLogs_storesOnce_counterexample :
    (emptyLeader.addLogs alone [firstTestCommand]).2 =
        [.addLogReply firstTestCommand { success := true, leaderId := localServer 1 }] ∧
      (emptyLeader.addLogs alone [firstTestCommand]).1.state.entries = [{}] ∧
      ¬ StoresOnce alone [firstTestCommand] emptyLeader
        (emptyLeader.addLogs alone [firstTestCommand]) := by
  refine ⟨by decide, by decide, fun stores => ?_⟩
  have grown := stores.entries
  revert grown
  decide

end Server

end Quintet
