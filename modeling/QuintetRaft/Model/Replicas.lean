import QuintetRaft.Library.Linearizability
import QuintetRaft.Model.Interface

/-!
# Replicated applications

The functions that `Interface::bind` takes work on data of the application, as the one of
`example.cpp` does on its vector.  Here a bound function is given these data together with its
arguments, and what the clients see is recorded: a call when it is made, and the value of a promise
when it is set.
-/

namespace Quintet

/-- The functions that an application binds, under their names. -/
abbrev Operations (App Any : Type) := ByteString → Option (ByteString → App → App × Any)

/-- The entry that a command is made of. -/
def AddLogMessage.toBasic (msg : AddLogMessage) : BasicLogEntry :=
  { opName := msg.opName, args := msg.args, prmIdx := msg.prmIdx, srvId := msg.srvId }

@[simp] theorem toBasic_logEntry (msg : AddLogMessage) (term : Nat) :
    (Server.logEntry msg term).toBasic = msg.toBasic := rfl

@[simp] theorem AddLogMessage.toBasic_key (msg : AddLogMessage) : msg.toBasic.key = msg.key := rfl

/-- The system with the data of its applications. -/
structure Replicas (App Any : Type) where
  /-- The servers, their interfaces and the threads of the calls. -/
  system : System (App → App × Any)
  /-- The data of the application of each server. -/
  apps : ServerId → App
  /-- History: what the clients have seen, oldest first. -/
  seen : List (Linearizability.Event BasicLogEntry (ServerId × PrmIdx) Any) := []

namespace Replicas

variable {App Any : Type}

/-- All servers run the same application. -/
def init (fs : Operations App Any) (start : App) : Replicas App Any where
  system := System.init fun _ opName => fs opName
  apps _ := start

/-- `Interface::apply`: the function runs, and its value goes into the promise if the call was made
here and waits for it. -/
def apply (id : ServerId) (entry : BasicLogEntry) (replicas : Replicas App Any) :
    Replicas App Any :=
  match (replicas.system.interfaces id).fs entry.opName with
  | none => replicas
  | some f =>
      let (app, res) := f entry.args (replicas.apps id)
      { replicas with
        apps := Function.update replicas.apps id app
        seen :=
          if entry.srvId = id ∧ entry.prmIdx ∈ (replicas.system.interfaces id).prms then
            replicas.seen ++ [.respond entry.key res]
          else replicas.seen }

section

variable {id : ServerId} {entry : BasicLogEntry} {replicas : Replicas App Any}
  {f : ByteString → App → App × Any}

theorem apply_of_unbound (missing : (replicas.system.interfaces id).fs entry.opName = none) :
    replicas.apply id entry = replicas := by
  simp only [apply, missing]

theorem apply_apps (known : (replicas.system.interfaces id).fs entry.opName = some f) :
    (replicas.apply id entry).apps =
      Function.update replicas.apps id (f entry.args (replicas.apps id)).1 := by
  simp only [apply, known]

theorem apply_seen_of_own (known : (replicas.system.interfaces id).fs entry.opName = some f)
    (own : entry.srvId = id) (waits : entry.prmIdx ∈ (replicas.system.interfaces id).prms) :
    (replicas.apply id entry).seen =
      replicas.seen ++ [.respond entry.key (f entry.args (replicas.apps id)).2] := by
  simp only [apply, known]
  exact if_pos ⟨own, waits⟩

theorem apply_seen_of_other (known : (replicas.system.interfaces id).fs entry.opName = some f)
    (other : entry.srvId ≠ id) : (replicas.apply id entry).seen = replicas.seen := by
  simp only [apply, known]
  exact if_neg fun promised => other promised.1

end

/-- What an action does to the applications and shows to the clients. -/
def observe (replicas : Replicas App Any) : Action → Replicas App Any
  | .asyncCall id opName args =>
      { replicas with
        seen := replicas.seen ++
          [.invoke ((replicas.system.interfaces id).asyncCall id opName args).2.toBasic] }
  | .apply id =>
      match replicas.system.nextEntry id with
      | some entry => replicas.apply id entry
      | none => replicas
  | .raft _ | .addLogReply _ _ _ => replicas

/-- One step of the system. -/
def step (config : ClusterConfig) (replicas : Replicas App Any) (action : Action) :
    Option (Replicas App Any) :=
  (replicas.system.step config action).map fun system => { replicas.observe action with system }

theorem step_eq_some {config : ClusterConfig} {before after : Replicas App Any}
    {action : Action} :
    step config before action = some after ↔
      ∃ system, before.system.step config action = some system ∧
        after = { before.observe action with system } := by
  simp [step, Option.map_eq_some_iff, eq_comm (b := after)]

/-- The application as a single object, which performs entries one at a time. -/
def object (fs : Operations App Any) (start : App) :
    Linearizability.Object BasicLogEntry (ServerId × PrmIdx) App Any where
  key := BasicLogEntry.key
  start := start
  perform entry app :=
    match fs entry.opName with
    | none => (app, none)
    | some f => ((f entry.args app).1, some (f entry.args app).2)

end Replicas

end Quintet
