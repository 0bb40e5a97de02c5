import QuintetRaft.Model.Defs

/-!
# Clients of remote procedure calls

`RpcClient.cpp`, `RpcClients.cpp` and `RaftClient.cpp`, which are one construction: a call allocates
a promise and is handed to gRPC, gRPC puts the finished calls into a completion queue in some order,
and the thread of the client takes them from there and sets their promises.
-/

namespace Quintet

/-- `grpc::Status`. -/
structure Status where
  /-- The code, which is `0` for a call that has succeeded. -/
  errorCode : Nat := 0
  /-- What went wrong. -/
  errorMessage : String := ""
  deriving DecidableEq, Repr

/-- `grpc::Status::ok`. -/
def Status.ok (status : Status) : Bool := status.errorCode == 0

/-- What a promise is set to. -/
inductive Outcome (R : Type)
  /-- The reply. -/
  | value (reply : R)
  /-- An `RpcError` with its text. -/
  | rpcError (what : String)
  deriving DecidableEq, Repr

structure PbReply where
  term : Nat := 0
  ans : Bool := false
  deriving DecidableEq, Repr

structure PbServerId where
  addr : ByteString := {}
  port : UInt32 := 0
  deriving DecidableEq, Repr

structure PbAddLogReply where
  success : Bool := false
  leaderId : PbServerId := {}
  deriving DecidableEq, Repr

def convertReply (reply : PbReply) : Reply := (reply.term, reply.ans)

def convertServerId (serverId : PbServerId) : ServerId :=
  { addr := serverId.addr, port := serverId.port.toUInt16 }

def convertAddLogReply (reply : PbAddLogReply) : AddLogReply :=
  { success := reply.success, leaderId := convertServerId reply.leaderId }

/-- What differs between the clients. -/
structure ClientKind (Target Pb R : Type) where
  /-- The targets that a call can be made to. -/
  known : Target → Bool
  /-- The reply that a message stands for. -/
  convert : Pb → R

/-- `RpcClient` calls one server. -/
def rpcClient : ClientKind Unit PbReply Reply :=
  { known := fun _ => true, convert := convertReply }

/-- `RpcClients` calls the servers it has stubs for. -/
def rpcClients (stubs : List ServerId) : ClientKind ServerId PbReply Reply :=
  { known := stubs.contains, convert := convertReply }

/-- `RaftClient` calls one server. -/
def raftClient : ClientKind Unit PbAddLogReply AddLogReply :=
  { known := fun _ => true, convert := convertAddLogReply }

/-- A call that gRPC has finished, named by its number. -/
structure FinishedCall (Pb : Type) where
  call : Nat
  status : Status := {}
  reply : Pb
  deriving DecidableEq, Repr

/-- The thread that executes `run`. -/
inductive RunningThread
  | notStarted | running | returned
  deriving DecidableEq, Repr

/-- `Impl` of a client. -/
structure AsyncClient (Pb R : Type) where
  /-- The thread; the constructors of `RpcClient` and `RaftClient` start it. -/
  runningThread : RunningThread := .running
  /-- How many calls have been made. -/
  issued : Nat := 0
  /-- The calls that gRPC is busy with. -/
  pending : List Nat := []
  /-- The completion queue. -/
  cq : List (FinishedCall Pb) := []
  /-- `cq.Shutdown()` has been called. -/
  isShutdown : Bool := false
  /-- The promises that have been set, oldest first. -/
  prms : List (Nat × Outcome R) := []
  /-- History: the calls that gRPC has finished, oldest first. -/
  finished : List (FinishedCall Pb) := []
  deriving DecidableEq, Repr

/-- A new client, whose thread has been started or not. -/
def AsyncClient.fresh {Pb R : Type} (started : Bool) : AsyncClient Pb R :=
  { runningThread := if started then .running else .notStarted }

/-- What happens to a client. -/
inductive ClientEvent (Target Pb : Type)
  /-- `asyncRun` starts the thread. -/
  | asyncRun
  /-- One of the functions that make a call. -/
  | asyncCall (target : Target)
  /-- gRPC finishes a call. -/
  | finish (call : FinishedCall Pb)
  /-- One turn of the loop in `run`. -/
  | next
  /-- `stop` shuts the completion queue down, and then joins the thread. -/
  | stop
  deriving DecidableEq, Repr

namespace ClientKind

variable {Target Pb R : Type} (kind : ClientKind Target Pb R)

/-- What `run` sets the promise of a call to. -/
def outcome (call : FinishedCall Pb) : Outcome R :=
  if call.status.ok then .value (kind.convert call.reply)
  else .rpcError (toString call.status.errorCode ++ ", " ++ call.status.errorMessage)

/-- Make a call; for a target without a stub `stubs.at` throws, and nothing is issued. -/
def asyncCall (target : Target) (client : AsyncClient Pb R) : AsyncClient Pb R :=
  if kind.known target then
    { client with issued := client.issued + 1, pending := client.pending ++ [client.issued] }
  else client

/-- One turn of the loop in `run`.  `cq.Next` blocks while the queue is empty, and returns `false`
when it has been shut down and no call is left.  After an error the function returns. -/
def next (client : AsyncClient Pb R) : Option (AsyncClient Pb R) :=
  if client.runningThread = .running then
    match client.cq with
    | [] =>
        if client.isShutdown ∧ client.pending = [] then
          some { client with runningThread := .returned }
        else none
    | call :: rest =>
        some
          { client with
            cq := rest
            prms := client.prms ++ [(call.call, kind.outcome call)]
            runningThread := if call.status.ok then .running else .returned }
  else none

/-- One event; nothing when it cannot happen. -/
def step (client : AsyncClient Pb R) : ClientEvent Target Pb → Option (AsyncClient Pb R)
  | .asyncRun =>
      if client.runningThread = .notStarted then some { client with runningThread := .running }
      else none
  | .asyncCall target => if client.isShutdown then none else some (kind.asyncCall target client)
  | .finish call =>
      if call.call ∈ client.pending then
        some
          { client with
            pending := client.pending.erase call.call
            cq := client.cq ++ [call]
            finished := client.finished ++ [call] }
      else none
  | .next => kind.next client
  | .stop => some { client with isShutdown := true }

/-- Let the loop take turns, at most so many. -/
def turns : Nat → AsyncClient Pb R → AsyncClient Pb R
  | 0, client => client
  | count + 1, client =>
      match kind.next client with
      | none => client
      | some later => turns count later

/-- Let the loop take all finished calls that it is going to take. -/
def drain (client : AsyncClient Pb R) : AsyncClient Pb R := kind.turns client.cq.length client

end ClientKind

/-- The calls that are finished in a list of events, oldest first. -/
def finishes {Target Pb : Type} (events : List (ClientEvent Target Pb)) :
    List (FinishedCall Pb) :=
  events.filterMap fun
    | .finish call => some call
    | _ => none

end Quintet
