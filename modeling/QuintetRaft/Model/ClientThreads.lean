import QuintetRaft.Model.Replicas
import QuintetRaft.Model.Sections

/-!
# The threads of the clients

`Interface::asyncCall` and `Interface::apply`, cut at their accesses to `prms`.  No lock protects
this map: clients put their promises into it while the thread that runs `apply` looks for others.
When an operation of the map begins while another one is going on, or a promise is put into it while
`apply` has an iterator, which a rehash invalidates, nothing is known of the map any more, and each
operation may have done its work or not.
-/

namespace Quintet

/-- A thread in `Interface::asyncCall` that has drawn the index of its promise. -/
structure CallThread where
  /-- The command of the call. -/
  msg : AddLogMessage
  /-- `prms.emplace` is going on. -/
  emplacing : Bool := false
  deriving DecidableEq

/-- Where `Interface::apply` is after the operation has returned. -/
inductive ApplyStage
  /-- `prms.find` comes next. -/
  | find
  /-- `prms.find` is going on. -/
  | finding
  /-- `set_value` comes next. -/
  | setValue
  /-- `prms.erase` comes next. -/
  | erase
  /-- `prms.erase` is going on. -/
  | erasing
  deriving DecidableEq

/-- The thread that runs `Interface::apply` for a call of this server. -/
structure ApplyThread (Any : Type) where
  /-- The entry. -/
  entry : BasicLogEntry
  /-- What the operation has returned. -/
  res : Any
  /-- Where it is. -/
  stage : ApplyStage := .find

/-- What clients see. -/
abbrev CallEvent (Any : Type) := Linearizability.Event BasicLogEntry (ServerId × PrmIdx) Any

/-- The `Interface` of a server with its threads and the data of its application. -/
structure InterfaceProcess (App Any : Type) where
  /-- The bound operations. -/
  fs : Operations App Any
  /-- The data of the application. -/
  app : App
  /-- Index of the next promise. -/
  curPrmIdx : PrmIdx := 0
  /-- The registered promises. -/
  prms : List PrmIdx := []
  /-- An operation of `prms` has met another one, or an iterator. -/
  raced : Bool := false
  /-- The threads in `asyncCall`. -/
  clients : List CallThread := []
  /-- The thread in `apply`, when it has to set a promise. -/
  applying : Option (ApplyThread Any) := none
  /-- History: the entries `apply` has been called with, oldest first. -/
  invoked : List BasicLogEntry := []
  /-- History: the promises that have been set, with their values, oldest first. -/
  results : List (PrmIdx × Any) := []
  /-- What the thread that runs `apply` has died of. -/
  failure : Option ApplyError := none

/-- What the threads of an interface do next. -/
inductive InterfaceAct
  /-- A client calls `asyncCall`, which draws the index of its promise. -/
  | asyncCall (opName args : ByteString)
  /-- A thread in `asyncCall` begins to put its promise into `prms`. -/
  | emplace (position : Nat)
  /-- It has done so, or not, and starts the thread of `addLog`. -/
  | addLog (position : Nat) (emplaced : Bool)
  /-- `apply` is called with the next entry, and the operation returns. -/
  | apply
  /-- It begins to look for the promise. -/
  | find
  /-- It has found the promise, or not. -/
  | found (registered : Bool)
  /-- It sets the value of the promise. -/
  | setValue
  /-- It begins to erase the promise. -/
  | erase
  /-- It has erased the promise, or not. -/
  | erased (gone : Bool)
  deriving DecidableEq

/-- What has become of an interface, the threads of `addLog` that were started, and what clients
have seen. -/
structure InterfaceResult (App Any : Type) where
  /-- The interface. -/
  process : InterfaceProcess App Any
  /-- The commands of the threads. -/
  calls : List AddLogMessage := []
  /-- What was seen. -/
  seen : List (CallEvent Any) := []

namespace InterfaceProcess

variable {App Any : Type}

/-- No thread puts its promise into `prms`. -/
def NoneEmplacing (process : InterfaceProcess App Any) : Prop :=
  ∀ client ∈ process.clients, client.emplacing = false

/-- The act does not begin an operation of `prms` that meets another one. -/
def Undisturbed (process : InterfaceProcess App Any) : InterfaceAct → Prop
  -- between `find` and `erase` there is the iterator `prm`
  | .emplace _ => process.NoneEmplacing ∧ ∀ thread ∈ process.applying, thread.stage = .find
  | .find | .erase => process.NoneEmplacing
  | _ => True

instance (process : InterfaceProcess App Any) : Decidable process.NoneEmplacing :=
  inferInstanceAs (Decidable (∀ _ ∈ _, _))

instance (process : InterfaceProcess App Any) : (act : InterfaceAct) →
    Decidable (process.Undisturbed act)
  | .emplace _ => inferInstanceAs (Decidable (_ ∧ ∀ _ ∈ _, _))
  | .find | .erase => inferInstanceAs (Decidable process.NoneEmplacing)
  | .asyncCall .. | .addLog .. | .apply | .found _ | .setValue | .erased _ => .isTrue trivial

/-- An operation of `prms` begins. -/
def enterMap (process : InterfaceProcess App Any) (act : InterfaceAct) :
    InterfaceProcess App Any :=
  { process with raced := process.raced || !decide (process.Undisturbed act) }

/-- The thread in `apply`, if it is at a stage. -/
def applyingAt (process : InterfaceProcess App Any) (stage : ApplyStage) :
    Option (ApplyThread Any) :=
  process.applying.filter (·.stage = stage)

theorem applyingAt_eq_some {process : InterfaceProcess App Any} {stage : ApplyStage}
    {thread : ApplyThread Any} :
    process.applyingAt stage = some thread ↔
      process.applying = some thread ∧ thread.stage = stage := by
  simp [applyingAt, Option.filter_eq_some_iff]

/-- One step of a thread. -/
def step (localId : ServerId) (handed : List BasicLogEntry) (process : InterfaceProcess App Any) :
    InterfaceAct → Option (InterfaceResult App Any)
  | .asyncCall opName args =>
      let msg : AddLogMessage := { opName, args, prmIdx := process.curPrmIdx, srvId := localId }
      some
        { process :=
            { process with
              curPrmIdx := process.curPrmIdx + 1
              clients := process.clients ++ [{ msg }] }
          seen := [.invoke msg.toBasic] }
  | .emplace position =>
      process.clients[position]?.bind fun client =>
        if client.emplacing then none
        else
          some
            { process :=
                { process.enterMap (.emplace position) with
                  clients := process.clients.set position { client with emplacing := true } } }
  | .addLog position emplaced =>
      process.clients[position]?.bind fun client =>
        if client.emplacing ∧ (emplaced ∨ process.raced) then
          some
            { process :=
                { process with
                  clients := process.clients.eraseIdx position
                  prms := if emplaced then process.prms.insert client.msg.prmIdx
                    else process.prms }
              calls := [client.msg] }
        else none
  | .apply =>
      if process.failure = none ∧ process.applying.isNone then
        handed[process.invoked.length]?.map fun entry =>
          let process := { process with invoked := process.invoked ++ [entry] }
          match process.fs entry.opName with
          | none => { process := { process with failure := some .unboundOperation } }
          | some f =>
              let (app, res) := f entry.args process.app
              { process :=
                  { process with
                    app
                    applying := if entry.srvId = localId then some { entry, res } else none } }
      else none
  | .find =>
      (process.applyingAt .find).map fun thread =>
        { process :=
            { process.enterMap .find with applying := some { thread with stage := .finding } } }
  | .found registered =>
      (process.applyingAt .finding).bind fun thread =>
        if process.raced ∨ registered = decide (thread.entry.prmIdx ∈ process.prms) then
          some
            { process :=
                if registered then
                  { process with applying := some { thread with stage := .setValue } }
                else
                  { process with applying := none, failure := some .promiseMissing } }
        else none
  | .setValue =>
      (process.applyingAt .setValue).map fun thread =>
        { process :=
            { process with
              applying := some { thread with stage := .erase }
              results := process.results ++ [(thread.entry.prmIdx, thread.res)] }
          seen := [.respond thread.entry.key thread.res] }
  | .erase =>
      (process.applyingAt .erase).map fun thread =>
        { process :=
            { process.enterMap .erase with applying := some { thread with stage := .erasing } } }
  | .erased gone =>
      (process.applyingAt .erasing).bind fun thread =>
        if gone ∨ process.raced then
          some
            { process :=
                { process with
                  applying := none
                  prms := if gone then process.prms.erase thread.entry.prmIdx
                    else process.prms } }
        else none

/-- What `apply` does until it has to set a promise. -/
theorem step_apply {localId : ServerId} {handed : List BasicLogEntry}
    {process : InterfaceProcess App Any} {result : InterfaceResult App Any}
    (taken : process.step localId handed .apply = some result) :
    process.failure = none ∧ process.applying = none ∧
      ∃ entry, handed[process.invoked.length]? = some entry ∧
        (process.fs entry.opName = none ∧
            result = { process := { process with
              invoked := process.invoked ++ [entry]
              failure := some .unboundOperation } } ∨
          ∃ f, process.fs entry.opName = some f ∧
            result = { process := { process with
              invoked := process.invoked ++ [entry]
              app := (f entry.args process.app).1
              applying := if entry.srvId = localId then
                  some { entry, res := (f entry.args process.app).2 }
                else none } }) := by
  obtain ⟨⟨alive, idle⟩, begins⟩ := Option.ite_none_right_eq_some.mp taken
  obtain ⟨entry, next, rfl⟩ := Option.map_eq_some_iff.mp begins
  refine ⟨alive, Option.isNone_iff_eq_none.mp idle, entry, next, ?_⟩
  dsimp only
  cases process.fs entry.opName with
  | none => exact .inl ⟨rfl, rfl⟩
  | some f => exact .inr ⟨f, rfl, rfl⟩

end InterfaceProcess

/-- The cluster and the interfaces of its servers, with their threads. -/
structure ThreadedSystem (App Any : Type) where
  /-- The servers. -/
  cluster : ThreadedCluster
  /-- Their interfaces. -/
  interfaces : ServerId → InterfaceProcess App Any
  /-- The commands of the `addLog` threads that have been started. -/
  calls : List AddLogMessage := []
  /-- The commands of those that have returned. -/
  returned : List AddLogMessage := []
  /-- History: what the clients have seen, oldest first. -/
  seen : List (CallEvent Any) := []

/-- What can happen to the cluster and its clients. -/
inductive ThreadedAction
  /-- A thread of an interface goes on. -/
  | interface (id : ServerId) (act : InterfaceAct)
  /-- A thread of a server goes on. -/
  | raft (label : ServerId × Sections.Act Event)
  /-- An `addLog` thread gets the answer of a server. -/
  | addLogReply (msg : AddLogMessage) (server : ServerId) (reply : AddLogReply)
  deriving DecidableEq

/-- A client makes a call. -/
def ThreadedAction.IsCall : ThreadedAction → Bool
  | .interface _ (.asyncCall _ _) => true
  | _ => false

namespace ThreadedSystem

variable {App Any : Type}

/-- No call has been made. -/
def init (fs : ServerId → Operations App Any) (start : ServerId → App) :
    ThreadedSystem App Any where
  cluster := ThreadedCluster.init
  interfaces id := { fs := fs id, app := start id }

/-- A server begins to handle commands of calls only. -/
def Called (system : ThreadedSystem App Any) : Sections.Act Event → Prop
  | .start event => ∀ msg ∈ event.command, msg ∈ system.calls
  | .go _ => True

instance (system : ThreadedSystem App Any) : (act : Sections.Act Event) →
    Decidable (system.Called act)
  | .start event => inferInstanceAs (Decidable (∀ msg ∈ event.command, msg ∈ system.calls))
  | .go _ => .isTrue trivial

/-- One step of one thread. -/
def step (config : ClusterConfig) (system : ThreadedSystem App Any) :
    ThreadedAction → Option (ThreadedSystem App Any)
  | .interface id act =>
      if id ∈ config.srvList then
        ((system.interfaces id).step id (applied (system.cluster id).sent) act).map fun result =>
          { system with
            interfaces := Function.update system.interfaces id result.process
            calls := system.calls ++ result.calls
            seen := system.seen ++ result.seen }
      else none
  | .raft label =>
      if system.Called label.2 then
        (system.cluster.step config label).map fun cluster => { system with cluster }
      else none
  | .addLogReply msg server reply =>
      if msg ∈ system.calls ∧ msg ∉ system.returned ∧
          .addLogReply msg reply ∈ (system.cluster server).sent then
        some (if reply.success then { system with returned := system.returned ++ [msg] }
          else system)
      else none

/-! ## What a step can do -/

variable {config : ClusterConfig} {before after : ThreadedSystem App Any}

theorem step_interface {id : ServerId} {act : InterfaceAct} :
    step config before (.interface id act) = some after ↔
      id ∈ config.srvList ∧ ∃ result,
        (before.interfaces id).step id (applied (before.cluster id).sent) act = some result ∧
          after = { before with
            interfaces := Function.update before.interfaces id result.process
            calls := before.calls ++ result.calls
            seen := before.seen ++ result.seen } := by
  simp only [step, Option.ite_none_right_eq_some, Option.map_eq_some_iff, eq_comm (b := after)]

theorem step_raft {label : ServerId × Sections.Act Event} :
    step config before (.raft label) = some after ↔
      before.Called label.2 ∧ ∃ cluster, before.cluster.step config label = some cluster ∧
        after = { before with cluster } := by
  simp only [step, Option.ite_none_right_eq_some, Option.map_eq_some_iff, eq_comm (b := after)]

theorem step_addLogReply {msg : AddLogMessage} {server : ServerId} {reply : AddLogReply} :
    step config before (.addLogReply msg server reply) = some after ↔
      (msg ∈ before.calls ∧ msg ∉ before.returned ∧
        .addLogReply msg reply ∈ (before.cluster server).sent) ∧
        after = if reply.success then { before with returned := before.returned ++ [msg] }
          else before := by
  simp only [step, Option.ite_none_right_eq_some, Option.some.injEq]
  exact and_congr_right fun _ => eq_comm

end ThreadedSystem

end Quintet
