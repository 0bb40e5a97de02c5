import QuintetRaft.Model.Cluster
import QuintetRaft.Model.Hazards

/-!
# The interface to the clients

`Interface.h` and `Interface.cpp`: the calls of clients on top of the cluster.  A call registers a
promise and starts a thread that offers its command to the servers in turn until one of them
answers with success.  An attempt that has run into its deadline may still be handled, so here a
command of a call may be handled by any server, at any time and any number of times.  A call and the
handling of an entry are one step each here, and so is every event of a server; the threads that
take these steps are those of `ClientThreads` and `Sections`.
-/

namespace Quintet

/-- The server and the promise that name a call. -/
def BasicLogEntry.key (entry : BasicLogEntry) : ServerId × PrmIdx := (entry.srvId, entry.prmIdx)

/-- The server and the promise that name a call. -/
def LogEntry.key (entry : LogEntry) : ServerId × PrmIdx := (entry.srvId, entry.prmIdx)

/-- The server and the promise that name a call. -/
def AddLogMessage.key (msg : AddLogMessage) : ServerId × PrmIdx := (msg.srvId, msg.prmIdx)

@[simp] theorem toBasic_key (entry : LogEntry) : entry.toBasic.key = entry.key := rfl

/-- A log holds a command if an entry has its key. -/
theorem Server.holdsOperation_iff {state : ServerState} {command : AddLogMessage} :
    holdsOperation state command ↔ ∃ entry ∈ state.entries, entry.key = command.key := by
  simp only [holdsOperation, LogEntry.key, AddLogMessage.key, Prod.mk.injEq]

/-- What `Interface::apply` can die of. -/
inductive ApplyError
  /-- `fs.at` finds no operation of the name. -/
  | unboundOperation
  /-- The assertion that the promise is still registered fails. -/
  | promiseMissing
  deriving DecidableEq, Repr

/-- The `Interface` of one server, whose operations have results of some type. -/
structure Interface (Any : Type) where
  /-- The bound operations. -/
  fs : ByteString → Option (ByteString → Any)
  /-- Index of the next promise. -/
  curPrmIdx : PrmIdx := 0
  /-- The registered promises. -/
  prms : List PrmIdx := []
  /-- History: the entries `apply` has been called with, oldest first. -/
  invoked : List BasicLogEntry := []
  /-- History: the promises that have been set, with their values, oldest first. -/
  results : List (PrmIdx × Any) := []
  /-- What the thread that runs `apply` has died of. -/
  failure : Option ApplyError := none

namespace Interface

variable {Any : Type}

/-- `Interface::asyncCall`: register a promise and start a thread with the command. -/
def asyncCall (localId : ServerId) (opName args : ByteString) (interface : Interface Any) :
    Interface Any × AddLogMessage :=
  ({ interface with
      curPrmIdx := interface.curPrmIdx + 1
      prms := interface.prms.insert interface.curPrmIdx },
    { opName, args, prmIdx := interface.curPrmIdx, srvId := localId })

/-- `Interface::apply` after the operation has returned. -/
def setPromise (localId : ServerId) (entry : BasicLogEntry) (res : Any)
    (interface : Interface Any) : Interface Any :=
  if entry.srvId = localId then
    if entry.prmIdx ∈ interface.prms then
      { interface with
        prms := interface.prms.erase entry.prmIdx
        results := interface.results ++ [(entry.prmIdx, res)] }
    else
      { interface with failure := some .promiseMissing }
  else
    interface

/-- `Interface::apply`. -/
def apply (localId : ServerId) (entry : BasicLogEntry) (interface : Interface Any) :
    Interface Any :=
  let interface := { interface with invoked := interface.invoked ++ [entry] }
  match interface.fs entry.opName with
  | none => { interface with failure := some .unboundOperation }
  | some f => interface.setPromise localId entry (f entry.args)

/-- Handling an entry registers no promise. -/
theorem apply_prms_subset (localId : ServerId) (entry : BasicLogEntry)
    (interface : Interface Any) :
    (interface.apply localId entry).prms ⊆ interface.prms := by
  unfold apply setPromise
  dsimp only
  split
  · exact List.Subset.refl _
  · split_ifs
    · exact List.erase_subset
    · exact List.Subset.refl _
    · exact List.Subset.refl _

end Interface

/-- The cluster with the interfaces of its servers. -/
structure System (Any : Type) where
  /-- The servers. -/
  cluster : Cluster
  /-- Their interfaces. -/
  interfaces : ServerId → Interface Any
  /-- The commands of the `addLog` threads that have been started. -/
  calls : List AddLogMessage := []
  /-- The commands of those that have returned. -/
  returned : List AddLogMessage := []

/-- What can happen to the cluster and its clients. -/
inductive Action
  /-- A client of a server makes a call. -/
  | asyncCall (id : ServerId) (opName args : ByteString)
  /-- A server takes a step. -/
  | raft (label : ServerId × Event)
  /-- An `addLog` thread gets the answer of a server. -/
  | addLogReply (msg : AddLogMessage) (server : ServerId) (reply : AddLogReply)
  /-- The application of a server handles the next entry handed to it. -/
  | apply (id : ServerId)
  deriving DecidableEq

namespace System

variable {Any : Type}

/-- No call has been made. -/
def init (fs : ServerId → ByteString → Option (ByteString → Any)) : System Any where
  cluster := Cluster.init
  interfaces id := { fs := fs id }

/-- The next entry that the application of a server handles. -/
def nextEntry (system : System Any) (id : ServerId) : Option BasicLogEntry :=
  if (system.interfaces id).failure = none then
    (applied (system.cluster id).sent)[(system.interfaces id).invoked.length]?
  else
    none

/-- One step of the system; a server handles commands of calls only. -/
def step (config : ClusterConfig) (system : System Any) : Action → Option (System Any)
  | .asyncCall id opName args =>
      if id ∈ config.srvList then
        let (interface, msg) := (system.interfaces id).asyncCall id opName args
        some { system with
          interfaces := Function.update system.interfaces id interface
          calls := system.calls ++ [msg] }
      else none
  | .raft label =>
      if ∀ msg ∈ label.2.command, msg ∈ system.calls then
        (system.cluster.step config label).map fun cluster => { system with cluster }
      else none
  | .addLogReply msg server reply =>
      if msg ∈ system.calls ∧ msg ∉ system.returned ∧
          .addLogReply msg reply ∈ (system.cluster server).sent then
        some (if reply.success then { system with returned := system.returned ++ [msg] }
          else system)
      else none
  | .apply id =>
      (system.nextEntry id).map fun entry =>
        { system with
          interfaces :=
            Function.update system.interfaces id ((system.interfaces id).apply id entry) }

/-! ## What a step can do -/

variable {config : ClusterConfig} {before after : System Any}

theorem step_asyncCall {id : ServerId} {opName args : ByteString} :
    step config before (.asyncCall id opName args) = some after ↔
      id ∈ config.srvList ∧
        after = { before with
          interfaces := Function.update before.interfaces id
            ((before.interfaces id).asyncCall id opName args).1
          calls := before.calls ++ [((before.interfaces id).asyncCall id opName args).2] } := by
  simp [step, eq_comm]

theorem step_raft {label : ServerId × Event} :
    step config before (.raft label) = some after ↔
      (∀ msg ∈ label.2.command, msg ∈ before.calls) ∧
        ∃ cluster, before.cluster.step config label = some cluster ∧
          after = { before with cluster } := by
  simp [step, Option.map_eq_some_iff, eq_comm (b := after)]

theorem step_addLogReply {msg : AddLogMessage} {server : ServerId} {reply : AddLogReply} :
    step config before (.addLogReply msg server reply) = some after ↔
      (msg ∈ before.calls ∧ msg ∉ before.returned ∧
        .addLogReply msg reply ∈ (before.cluster server).sent) ∧
        after = if reply.success then { before with returned := before.returned ++ [msg] }
          else before := by
  simp only [step, Option.ite_none_right_eq_some, Option.some.injEq]
  exact and_congr_right fun _ => eq_comm

theorem step_apply {id : ServerId} :
    step config before (.apply id) = some after ↔
      ∃ entry, before.nextEntry id = some entry ∧
        after = { before with
          interfaces :=
            Function.update before.interfaces id ((before.interfaces id).apply id entry) } := by
  simp [step, Option.map_eq_some_iff, eq_comm (b := after)]

/-- The next entry was handed over, after those already handled. -/
theorem nextEntry_eq_some {id : ServerId} {entry : BasicLogEntry}
    (next : before.nextEntry id = some entry) :
    (before.interfaces id).failure = none ∧
      (applied (before.cluster id).sent)[(before.interfaces id).invoked.length]? = some entry := by
  unfold nextEntry at next
  split_ifs at next with alive
  exact ⟨alive, next⟩

end System

end Quintet
