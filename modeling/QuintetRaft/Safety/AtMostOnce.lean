import QuintetRaft.Model.Interface
import QuintetRaft.Safety.StateMachine

/-!
# Calls take effect at most once

A leader does not add a command that its log already holds, so in a run of steady steps no log ever
holds a command twice, and no server handles one twice.
-/

namespace Quintet

open Leadership (History Extends)

/-! ## Logs without repetition -/

/-- No command occurs twice in a log. -/
def DistinctKeys (entries : List LogEntry) : Prop := (entries.map LogEntry.key).Nodup

theorem DistinctKeys.anti {shorter longer : List LogEntry} (distinct : DistinctKeys longer)
    (begins : shorter <+: longer) : DistinctKeys shorter :=
  distinct.sublist (begins.map LogEntry.key).sublist

/-- The scan of `addLog` keeps a command from being added twice. -/
theorem DistinctKeys.concat {state : ServerState} (distinct : DistinctKeys state.entries)
    {msg : AddLogMessage} (absent : ¬ Server.holdsOperation state msg) (term : Nat) :
    DistinctKeys (state.entries ++ [Server.logEntry msg term]) := by
  unfold DistinctKeys at distinct ⊢
  rw [List.map_append, List.nodup_append]
  refine ⟨distinct, List.nodup_singleton _, ?_⟩
  rintro key member other single rfl
  obtain ⟨entry, inLog, same⟩ := List.mem_map.mp member
  rw [List.map_singleton, List.mem_singleton] at single
  obtain ⟨server, promise⟩ := Prod.mk.inj (same.trans single)
  exact absent ⟨entry, inLog, server, promise⟩

/-- No command occurs twice in the log of a server, or in the part of a leader's record that an
append request speaks about. -/
structure UniqueCommands (history : History ServerId LogEntry) (cluster : Cluster) : Prop where
  /-- No log repeats a command. -/
  logs : ∀ id, DistinctKeys (cluster id).server.state.entries
  /-- Nor does the part of a record that has been sent. -/
  sent : ∀ id target msg, Output.appendEntries target msg ∈ (cluster id).sent →
    DistinctKeys ((history.record msg.term).take msg.reach)

theorem uniqueCommands_init : UniqueCommands (History.init [{}]) Cluster.init where
  logs _ := List.nodup_singleton _
  sent _ _ _ member := by simp [Cluster.init] at member

namespace UniqueCommands

variable {config : ClusterConfig} {before after : Cluster} {label : ServerId × Event}
  {history later : History ServerId LogEntry}

theorem logs_step (unique : UniqueCommands history before)
    (simulates : Simulates config history before)
    (taken : Cluster.step config before label = some after) (id : ServerId) :
    DistinctKeys (after id).server.state.entries := by
  refine Cluster.forall_step taken (fun _ node => DistinctKeys node.server.state.entries)
    (fun id _ => unique.logs id) (fun result delivered moved => ?_) id
  obtain ⟨self, event⟩ := label
  dsimp only at delivered moved ⊢
  have distinct := unique.logs self
  cases event with
  | rpcAppendEntries msg =>
      by_cases accepts : (before self).server.Accepts msg
      · obtain ⟨-, -, -, replaced⟩ := simulates.accepted delivered moved accepts
        rcases replaced.eq_or_eq with same | same
        · rwa [same]
        · rw [same]
          exact unique.sent msg.leaderId self msg delivered
      · rwa [Server.step_entries moved, Server.entriesAfter, if_neg accepts]
  | rpcAddLog msg =>
      rw [Server.step_entries moved, Server.entriesAfter]
      split_ifs with stored
      · exact distinct.concat stored.2 _
      · exact distinct
  | _ =>
      rw [Server.step_entries moved]
      exact distinct

theorem sent_step (unique : UniqueCommands history before)
    (simulates : Simulates config history before) (record : Cluster.SenderRecord config before)
    (taken : Cluster.step config before label = some after)
    (steady : Cluster.Steady config before label after) (grows : Extends history later)
    (id target : ServerId) (msg : AppendEntriesMessage)
    (sent : Output.appendEntries target msg ∈ (after id).sent) :
    DistinctKeys ((later.record msg.term).take msg.reach) := by
  have listed := (Cluster.step_eq_some.mp taken).1
  rcases Cluster.sent_cases taken sent with old | ⟨rfl, -, result, moved, new⟩
  · obtain ⟨-, -, carries, -⟩ := (simulates.spoken id).appends target msg old
    rw [grows.take_record carries.reach_le]
    exact unique.sent id target msg old
  · obtain ⟨-, -, carries, -⟩ := simulates.appends_step record listed moved steady new
    have same := simulates.log_of_sent record listed moved steady new
    rw [grows.take_record carries.reach_le]
    exact (same ▸ unique.logs label.1).anti (List.take_prefix _ _)

theorem step (unique : UniqueCommands history before) (simulates : Simulates config history before)
    (record : Cluster.SenderRecord config before)
    (taken : Cluster.step config before label = some after)
    (steady : Cluster.Steady config before label after) (grows : Extends history later) :
    UniqueCommands later after where
  logs := unique.logs_step simulates taken
  sent := unique.sent_step simulates record taken steady grows

end UniqueCommands

/-- What a server has handed to its application contains no command twice. -/
theorem Simulates.applied_nodup {config : ClusterConfig} {cluster : Cluster}
    {history : History ServerId LogEntry} (simulates : Simulates config history cluster)
    (unique : UniqueCommands history cluster) (id : ServerId) :
    ((applied (cluster id).sent).map BasicLogEntry.key).Nodup := by
  rw [(simulates.handed id).handed, List.map_map]
  have begins := (unique.logs id).anti
    (List.take_prefix ((cluster id).server.state.lastApplied + 1) _)
  exact begins.sublist ((List.drop_sublist 1 _).map LogEntry.key)

/-! ## Where entries come from -/

/-- Every entry but the sentinel stores the command of a call. -/
def FromCalls (calls : List AddLogMessage) (entries : List LogEntry) : Prop :=
  ∀ entry ∈ entries, entry = {} ∨ ∃ msg ∈ calls, entry = Server.logEntry msg entry.term

theorem FromCalls.mono {calls more : List AddLogMessage} {entries : List LogEntry}
    (fromCalls : FromCalls calls entries) (grows : calls ⊆ more) : FromCalls more entries :=
  fun entry member => (fromCalls entry member).imp_right fun ⟨msg, called, stored⟩ =>
    ⟨msg, grows called, stored⟩

/-- The entries of all logs, and those under way, store commands of calls. -/
structure Provenance (calls : List AddLogMessage) (cluster : Cluster) : Prop where
  /-- The entries of the servers. -/
  logs : ∀ id, FromCalls calls (cluster id).server.state.entries
  /-- The entries under way. -/
  sent : ∀ id target msg, Output.appendEntries target msg ∈ (cluster id).sent →
    FromCalls calls msg.logEntries

theorem provenance_init (calls : List AddLogMessage) : Provenance calls Cluster.init where
  logs _ entry member := .inl (List.mem_singleton.mp member)
  sent _ _ _ member := by simp [Cluster.init] at member

/-- The new log of `defaultRPCAppendEntries` is made of the old one and of the message. -/
theorem mem_replicate {state : ServerState} {msg : AppendEntriesMessage} {entry : LogEntry}
    (member : entry ∈ (state.replicate msg).entries) :
    entry ∈ state.entries ∨ entry ∈ msg.logEntries := by
  rw [ServerState.replicate_entries] at member
  dsimp only at member
  split_ifs at member
  · exact (List.mem_append.mp member).imp List.mem_of_mem_take List.mem_of_mem_drop
  · exact .inl member

namespace Provenance

variable {config : ClusterConfig} {before after : Cluster} {label : ServerId × Event}
  {calls : List AddLogMessage}

theorem logs_step (provenance : Provenance calls before)
    (taken : Cluster.step config before label = some after)
    (called : ∀ msg ∈ label.2.command, msg ∈ calls) (id : ServerId) :
    FromCalls calls (after id).server.state.entries := by
  refine Cluster.forall_step taken (fun _ node => FromCalls calls node.server.state.entries)
    (fun id _ => provenance.logs id) (fun result delivered moved => ?_) id
  obtain ⟨self, event⟩ := label
  dsimp only at delivered moved called ⊢
  have earlier := provenance.logs self
  rw [Server.step_entries moved]
  cases event with
  | rpcAppendEntries msg =>
      simp only [Server.entriesAfter]
      split_ifs
      · intro entry member
        rcases mem_replicate member with old | new
        · exact earlier entry old
        · exact provenance.sent msg.leaderId self msg delivered entry new
      · exact earlier
  | rpcAddLog msg =>
      simp only [Server.entriesAfter]
      split_ifs
      · intro entry member
        rcases List.mem_append.mp member with old | new
        · exact earlier entry old
        · obtain rfl := List.mem_singleton.mp new
          exact .inr ⟨msg, called msg rfl, rfl⟩
      · exact earlier
  | _ => exact earlier

theorem step (provenance : Provenance calls before)
    (taken : Cluster.step config before label = some after)
    (called : ∀ msg ∈ label.2.command, msg ∈ calls) : Provenance calls after where
  logs := provenance.logs_step taken called
  sent id target msg sent := by
    rcases Cluster.sent_cases taken sent with old | ⟨rfl, -, result, moved, new⟩
    · exact provenance.sent id target msg old
    · obtain ⟨-, node, _, _, -, -, built⟩ := Server.step_emits moved new
      obtain ⟨_, -, rfl⟩ := Option.map_eq_some_iff.mp built
      exact fun entry member => provenance.logs label.1 entry (List.mem_of_mem_drop member)

theorem mono {more : List AddLogMessage} (provenance : Provenance calls before)
    (grows : calls ⊆ more) : Provenance more before where
  logs id := (provenance.logs id).mono grows
  sent id target msg sent := (provenance.sent id target msg sent).mono grows

end Provenance

/-! ## The interfaces -/

/-- The promises and the results of an interface agree with the entries its application has
handled. -/
structure InterfaceRecord {Any : Type} (calls : List AddLogMessage) (localId : ServerId)
    (interface : Interface Any) (handed : List BasicLogEntry) : Prop where
  /-- Entries have been handled in the order they were handed over. -/
  invoked : interface.invoked <+: handed
  /-- Every call waits for its promise, or its command has been handled. -/
  awaited : ∀ msg ∈ calls, msg.srvId = localId →
    msg.prmIdx ∈ interface.prms ∨ ∃ entry ∈ interface.invoked, entry.key = msg.key
  /-- Promises have been set for commands that have been handled. -/
  results : ∀ result ∈ interface.results,
    ∃ entry ∈ interface.invoked, entry.key = (localId, result.1)
  /-- No promise has been set twice. -/
  once : (interface.results.map Prod.fst).Nodup
  /-- The assertion of `apply` has not failed. -/
  registered : interface.failure ≠ some .promiseMissing

namespace InterfaceRecord

variable {Any : Type} {calls more : List AddLogMessage} {localId : ServerId}
  {interface : Interface Any} {handed longer : List BasicLogEntry} {entry : BasicLogEntry}

theorem init (localId : ServerId) (fs : ByteString → Option (ByteString → Any)) :
    InterfaceRecord [] localId { fs } [] where
  invoked := List.prefix_rfl
  awaited _ member := by simp at member
  results _ member := by simp at member
  once := List.nodup_nil
  registered := by simp

/-- More entries may be handed over. -/
theorem extend (record : InterfaceRecord calls localId interface handed)
    (begins : handed <+: longer) : InterfaceRecord calls localId interface longer :=
  { record with invoked := record.invoked.trans begins }

/-- A call registers its promise. -/
theorem asyncCall (record : InterfaceRecord calls localId interface handed)
    (opName args : ByteString) :
    InterfaceRecord (calls ++ [(interface.asyncCall localId opName args).2]) localId
      (interface.asyncCall localId opName args).1 handed := by
  refine { record with awaited := fun msg member own => ?_ }
  rcases List.mem_append.mp member with old | new
  · exact (record.awaited msg old own).imp_left fun waits => List.mem_insert_of_mem waits
  · obtain rfl := List.mem_singleton.mp new
    exact .inl List.mem_insert_self

/-- Calls of other servers are none of this server's. -/
theorem otherCall (record : InterfaceRecord calls localId interface handed) {msg : AddLogMessage}
    (other : msg.srvId ≠ localId) : InterfaceRecord (calls ++ [msg]) localId interface handed := by
  refine { record with awaited := fun called member own => ?_ }
  rcases List.mem_append.mp member with old | new
  · exact record.awaited called old own
  · obtain rfl := List.mem_singleton.mp new
    exact absurd own other

/-- What has been handled before can have been handled since. -/
theorem awaited_mono (record : InterfaceRecord calls localId interface handed)
    {invoked : List BasicLogEntry} (grows : interface.invoked ⊆ invoked) (msg : AddLogMessage)
    (member : msg ∈ calls) (own : msg.srvId = localId) :
    msg.prmIdx ∈ interface.prms ∨ ∃ entry ∈ invoked, entry.key = msg.key :=
  (record.awaited msg member own).imp_right fun ⟨entry, old, same⟩ => ⟨entry, grows old, same⟩

theorem results_mono (record : InterfaceRecord calls localId interface handed)
    {invoked : List BasicLogEntry} (grows : interface.invoked ⊆ invoked) (result : PrmIdx × Any)
    (member : result ∈ interface.results) :
    ∃ entry ∈ invoked, entry.key = (localId, result.1) := by
  obtain ⟨entry, old, same⟩ := record.results result member
  exact ⟨entry, grows old, same⟩

/-- Handling an entry that sets no promise. -/
theorem invoke (record : InterfaceRecord calls localId interface handed)
    {invoked : List BasicLogEntry} (begins : invoked <+: handed)
    (grows : interface.invoked ⊆ invoked) {failure : Option ApplyError}
    (registered : failure ≠ some .promiseMissing) :
    InterfaceRecord calls localId { interface with invoked, failure } handed where
  invoked := begins
  awaited := record.awaited_mono grows
  results := record.results_mono grows
  once := record.once
  registered := registered

/-- Handling an entry that sets a promise no other entry has set. -/
theorem setPromise (record : InterfaceRecord calls localId interface handed)
    (begins : interface.invoked ++ [entry] <+: handed) (own : entry.srvId = localId)
    (fresh : ∀ old ∈ interface.invoked, old.key ≠ entry.key) (res : Any) :
    InterfaceRecord calls localId
      { interface with
        invoked := interface.invoked ++ [entry]
        prms := interface.prms.erase entry.prmIdx
        results := interface.results ++ [(entry.prmIdx, res)] } handed := by
  have grows : interface.invoked ⊆ interface.invoked ++ [entry] := List.subset_append_left _ _
  refine ⟨begins, fun msg member ofLocal => ?_, fun result member => ?_, ?_, record.registered⟩
  · rcases record.awaited_mono grows msg member ofLocal with waits | handled
    · by_cases same : msg.prmIdx = entry.prmIdx
      · refine .inr ⟨entry, List.mem_append_right _ (List.mem_singleton_self _), ?_⟩
        rw [BasicLogEntry.key, AddLogMessage.key, own, ofLocal, same]
      · exact .inl ((List.mem_erase_of_ne same).mpr waits)
    · exact .inr handled
  · rcases List.mem_append.mp member with old | new
    · exact record.results_mono grows result old
    · obtain rfl := List.mem_singleton.mp new
      exact ⟨entry, List.mem_append_right _ (List.mem_singleton_self _), by rw [← own]; rfl⟩
  · dsimp only
    rw [List.map_append, List.nodup_append]
    refine ⟨record.once, List.nodup_singleton _, ?_⟩
    rintro key member other single rfl
    obtain ⟨result, old, same⟩ := List.mem_map.mp member
    rw [List.map_singleton, List.mem_singleton] at single
    obtain ⟨earlier, handled, sameKey⟩ := record.results result old
    refine fresh earlier handled (sameKey.trans ?_)
    rw [same, single, ← own]
    rfl

/-- The application handles the next entry, whose command it has not handled before. -/
theorem apply (record : InterfaceRecord calls localId interface handed)
    (next : handed[interface.invoked.length]? = some entry)
    (distinct : (handed.map BasicLogEntry.key).Nodup)
    (called : entry.srvId = localId → ∃ msg ∈ calls, msg.key = entry.key) :
    InterfaceRecord calls localId (interface.apply localId entry) handed := by
  have begins : interface.invoked ++ [entry] <+: handed := by
    obtain ⟨rest, rfl⟩ := record.invoked
    rw [List.getElem?_append_right (Nat.le_refl _), Nat.sub_self] at next
    obtain ⟨tail, rfl⟩ := List.head?_eq_some_iff.mp (List.head?_eq_getElem? ▸ next)
    exact ⟨tail, by simp⟩
  have fresh : ∀ old ∈ interface.invoked, old.key ≠ entry.key := by
    have nodup := distinct.sublist (begins.map BasicLogEntry.key).sublist
    rw [List.map_append, List.nodup_append] at nodup
    intro old member
    exact nodup.2.2 old.key (List.mem_map_of_mem member) entry.key (by simp)
  have grows : interface.invoked ⊆ interface.invoked ++ [entry] := List.subset_append_left _ _
  unfold Interface.apply
  dsimp only
  split
  · exact record.invoke begins grows (by simp)
  · unfold Interface.setPromise
    split_ifs with own waiting
    · exact record.setPromise begins own fresh _
    · -- the call that stored the entry still waits for its promise
      obtain ⟨msg, member, same⟩ := called own
      obtain ⟨server, promise⟩ := Prod.mk.inj same
      rcases record.awaited msg member (server.trans own) with waits | ⟨old, handled, sameKey⟩
      · exact absurd (promise ▸ waits) waiting
      · exact absurd (sameKey.trans same) (fresh old handled)
    · exact record.invoke begins grows record.registered

end InterfaceRecord

namespace System

variable {Any : Type} {config : ClusterConfig} {system before after final : System Any}
  {action : Action} {actions : List Action}

/-- No server has handled a command twice, no assertion about promises has failed, and no promise
has been set twice. -/
structure AtMostOnce (system : System Any) : Prop where
  /-- `apply` has been called at most once for each call. -/
  invoked : ∀ id, ((system.interfaces id).invoked.map BasicLogEntry.key).Nodup
  /-- The promise was registered whenever `apply` needed it. -/
  registered : ∀ id, (system.interfaces id).failure ≠ some .promiseMissing
  /-- Promises have been set at most once. -/
  results : ∀ id, ((system.interfaces id).results.map Prod.fst).Nodup

/-- The servers take steady steps. -/
def Steady (config : ClusterConfig) (before : System Any) : Action → System Any → Prop
  | .raft label, after => Cluster.Steady config before.cluster label after.cluster
  | _, _ => True

instance (before : System Any) : (action : Action) → (after : System Any) →
    Decidable (Steady config before action after)
  | .raft label, after =>
      inferInstanceAs (Decidable (Cluster.Steady config before.cluster label after.cluster))
  | .asyncCall .., _ | .addLogReply .., _ | .apply _, _ => .isTrue trivial

/-- What holds of the system in a run of steady steps. -/
structure OnceRecord (config : ClusterConfig) (system : System Any) : Prop where
  /-- Leaders have been elected. -/
  record : Cluster.SenderRecord config system.cluster
  /-- The cluster has a history, in which no command is repeated. -/
  simulates : ∃ history, Simulates config history system.cluster ∧
    UniqueCommands history system.cluster
  /-- Entries store commands of calls. -/
  provenance : Provenance system.calls system.cluster
  /-- The interfaces agree with what was handed over. -/
  interfaces : ∀ id, InterfaceRecord system.calls id (system.interfaces id)
    (applied (system.cluster id).sent)

namespace OnceRecord

theorem init (config : ClusterConfig) (fs : ServerId → ByteString → Option (ByteString → Any)) :
    OnceRecord config (System.init fs) where
  record := Cluster.senderRecord_init
  simulates := ⟨_, simulates_init config, uniqueCommands_init⟩
  provenance := provenance_init []
  interfaces id := .init id (fs id)

/-- What a server hands over for a client of its own belongs to a call of that client. -/
theorem called (record : OnceRecord config system) {id : ServerId} {entry : BasicLogEntry}
    (member : entry ∈ applied (system.cluster id).sent) (own : entry.srvId = id) :
    ∃ msg ∈ system.calls, msg.key = entry.key := by
  obtain ⟨history, simulates, -⟩ := record.simulates
  have present := member
  rw [(simulates.handed id).handed] at present
  obtain ⟨logged, inSlice, rfl⟩ := List.mem_map.mp present
  have inLog := List.mem_of_mem_take (List.mem_of_mem_drop inSlice)
  rcases record.provenance.logs id logged inLog with rfl | ⟨msg, called, stored⟩
  · have null : id = nullServerId := own.symm
    rw [null, record.record.outside _ config.null_notMem] at member
    simp at member
  · exact ⟨msg, called, by rw [stored]; rfl⟩

theorem step (record : OnceRecord config before)
    (taken : System.step config before action = some after)
    (steady : Steady config before action after) : OnceRecord config after := by
  cases action with
  | asyncCall id opName args =>
      obtain ⟨-, rfl⟩ := step_asyncCall.mp taken
      refine ⟨record.record, record.simulates,
        record.provenance.mono (List.subset_append_left _ _), fun other => ?_⟩
      dsimp only
      by_cases same : other = id
      · subst same
        rw [Function.update_self]
        exact (record.interfaces other).asyncCall opName args
      · rw [Function.update_of_ne same]
        exact (record.interfaces other).otherCall (Ne.symm same)
  | raft label =>
      obtain ⟨called, cluster, moved, rfl⟩ := step_raft.mp taken
      obtain ⟨history, simulates, unique⟩ := record.simulates
      have steady : Cluster.Steady config before.cluster label cluster := steady
      obtain ⟨later, run, simulated⟩ := simulates.step record.record moved steady
      obtain ⟨-, grows⟩ := Leadership.sound_of_run run simulates.sound sentinel_oldest
      have execution : Execution.run (Cluster.step config) [label] before.cluster =
          some cluster := by
        simp [Execution.run, moved]
      exact
        { record := record.record.step moved (steady.electsSafely record.record moved)
          simulates := ⟨later, simulated,
            unique.step simulates record.record moved steady grows⟩
          provenance := record.provenance.step moved called
          interfaces := fun id =>
            (record.interfaces id).extend (Cluster.applied_prefix execution id) }
  | addLogReply msg server reply =>
      obtain ⟨-, rfl⟩ := step_addLogReply.mp taken
      split_ifs
      · exact ⟨record.record, record.simulates, record.provenance, record.interfaces⟩
      · exact record
  | apply id =>
      obtain ⟨entry, next, rfl⟩ := step_apply.mp taken
      obtain ⟨-, waiting⟩ := nextEntry_eq_some next
      obtain ⟨history, simulates, unique⟩ := record.simulates
      refine ⟨record.record, record.simulates, record.provenance, fun other => ?_⟩
      dsimp only
      by_cases same : other = id
      · subst same
        rw [Function.update_self]
        exact (record.interfaces other).apply waiting (simulates.applied_nodup unique other)
          fun own => record.called (List.mem_of_getElem? waiting) own
      · rw [Function.update_of_ne same]
        exact record.interfaces other

theorem atMostOnce (record : OnceRecord config system) : AtMostOnce system where
  invoked id := by
    obtain ⟨history, simulates, unique⟩ := record.simulates
    have nodup := simulates.applied_nodup unique id
    exact nodup.sublist ((record.interfaces id).invoked.map BasicLogEntry.key).sublist
  registered id := (record.interfaces id).registered
  results id := (record.interfaces id).once

end OnceRecord

/-- Servers that bind one operation, which returns its arguments. -/
def echo (_ : ServerId) (opName : ByteString) : Option (ByteString → ByteString) :=
  if opName = "add" then some id else none

/-- The clients of a server make two calls. -/
def twoCalls (id : ServerId) (first second : ByteString) : List Action :=
  [.asyncCall id "add" first, .asyncCall id "add" second]

end System

end Quintet
