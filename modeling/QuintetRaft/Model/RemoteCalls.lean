import QuintetRaft.Library.Execution
import QuintetRaft.Model.Conversion

/-!
# Remote calls from end to end

`RaftRpcImpl` of `RpcService.cpp` at one end, the clients at the other.  A stub converts and writes
the message of a call; the service reads and converts it, calls the function that is bound, and
converts and writes its reply; the completion queue reads the reply for the loop of the client.
gRPC carries the bytes of a call unchanged, with any delay and perhaps more than once, or fails it.
-/

namespace Quintet

namespace Rpc

open WireFormat

variable (runtime : Runtime)

/-! ## The service -/

namespace RaftRpcImpl

def appendEntries (f : AppendEntriesMessage → Reply) (request : PbAppendEntriesMessage) :
    PbReply :=
  (PbReply.messages runtime).copyFrom (convertReply (f request.convertAppendEntriesMessage))

def requestVote (f : RequestVoteMessage → Reply) (request : PbRequestVoteMessage) : PbReply :=
  (PbReply.messages runtime).copyFrom (convertReply (f request.convertRequestVoteMessage))

def addLog (f : AddLogMessage → AddLogReply) (request : PbAddLogMessage) : PbAddLogReply :=
  (PbAddLogReply.messages runtime).copyFrom (convertAddLogReply (f request.convertAddLogMessage))

end RaftRpcImpl

/-- What the servers ask each other. -/
inductive PeerRequest
  | appendEntries (msg : AppendEntriesMessage)
  | requestVote (msg : RequestVoteMessage)
  deriving DecidableEq, Repr

/-- The bytes of a request, for the method that is called. -/
inductive PeerBytes
  | appendEntries (bytes : Bytes)
  | requestVote (bytes : Bytes)
  deriving DecidableEq, Repr

/-- How the calls of a kind cross the network. -/
structure Crossing (Req Rep Wire Pb : Type) where
  /-- What a stub sends. -/
  send : Req → Wire
  /-- What the service answers when a function is bound; nothing when it cannot read the request. -/
  serve : (Req → Rep) → Wire → Option Bytes
  /-- The reply that the completion queue reads. -/
  receive : Bytes → Option Pb

/-- The calls of `RpcClient` and `RpcClients`. -/
def peers : Crossing PeerRequest Reply PeerBytes Quintet.PbReply where
  send
    | .appendEntries msg => .appendEntries
        (PbAppendEntriesMessage.serializeWithCachedSizes runtime (convertAppendEntriesMessage msg))
    | .requestVote msg => .requestVote
        (PbRequestVoteMessage.serializeWithCachedSizes runtime (convertRequestVoteMessage msg))
  serve f
    | .appendEntries bytes =>
        ((PbAppendEntriesMessage.messages runtime).parse bytes).map fun request =>
          PbReply.serializeWithCachedSizes runtime
            (RaftRpcImpl.appendEntries runtime (fun msg => f (.appendEntries msg)) request)
    | .requestVote bytes =>
        ((PbRequestVoteMessage.messages runtime).parse bytes).map fun request =>
          PbReply.serializeWithCachedSizes runtime
            (RaftRpcImpl.requestVote runtime (fun msg => f (.requestVote msg)) request)
  receive bytes := ((PbReply.messages runtime).parse bytes).map PbReply.accessors

/-- The calls of `RaftClient`. -/
def clients : Crossing AddLogMessage AddLogReply Bytes Quintet.PbAddLogReply where
  send msg := PbAddLogMessage.serializeWithCachedSizes runtime (convertAddLogMessage msg)
  serve f bytes :=
    ((PbAddLogMessage.messages runtime).parse bytes).map fun request =>
      PbAddLogReply.serializeWithCachedSizes runtime (RaftRpcImpl.addLog runtime f request)
  receive bytes := ((PbAddLogReply.messages runtime).parse bytes).map PbAddLogReply.accessors

end Rpc

/-! ## A client and the services it calls -/

open Rpc WireFormat

/-- A client with its calls. -/
structure RemoteCalls (Req Rep Wire Pb : Type) where
  /-- The client. -/
  client : AsyncClient Pb Rep
  /-- What the stubs have sent, by the number of the call. -/
  requests : List Wire := []
  /-- What the services have answered, with the number of the call. -/
  replies : List (ℕ × Bytes) := []
  /-- History: the messages the calls were made with, by number. -/
  msgs : List Req := []
  /-- History: the functions that services have called, with the number of the call. -/
  handled : List (ℕ × (Req → Rep)) := []

/-- What happens to a client and its calls. -/
inductive RemoteEvent (Target Req Rep : Type)
  | asyncRun
  | asyncCall (target : Target) (msg : Req)
  /-- A service handles a call by the function bound there, as it is in the state it finds. -/
  | handle (call : ℕ) (f : Req → Rep)
  /-- A reply of a service reaches the client. -/
  | finish (call : ℕ) (bytes : Bytes)
  /-- gRPC gives a call up. -/
  | fail (call : ℕ) (status : Status)
  | next
  | stop

namespace RemoteCalls

variable {Target Req Rep Wire Pb : Type} (kind : ClientKind Target Pb Rep)
  (crossing : Crossing Req Rep Wire Pb) (empty : Pb)

/-- Something happens to the client alone. -/
def onClient (event : ClientEvent Target Pb) (calls : RemoteCalls Req Rep Wire Pb) :
    Option (RemoteCalls Req Rep Wire Pb) :=
  (kind.step calls.client event).map fun client => { calls with client }

/-- One event; nothing when it cannot happen.  A call that has failed has an empty reply. -/
def step (calls : RemoteCalls Req Rep Wire Pb) :
    RemoteEvent Target Req Rep → Option (RemoteCalls Req Rep Wire Pb)
  | .asyncRun => calls.onClient kind .asyncRun
  | .asyncCall target msg =>
      (calls.onClient kind (.asyncCall target)).map fun after =>
        if kind.known target then
          { after with
            requests := calls.requests ++ [crossing.send msg]
            msgs := calls.msgs ++ [msg] }
        else after
  | .handle call f => do
      let request ← calls.requests[call]?
      let bytes ← crossing.serve f request
      some { calls with
        replies := calls.replies ++ [(call, bytes)]
        handled := calls.handled ++ [(call, f)] }
  | .finish call bytes =>
      if (call, bytes) ∈ calls.replies then do
        let reply ← crossing.receive bytes
        calls.onClient kind (.finish { call, reply })
      else none
  | .fail call status =>
      if status.ok then none else calls.onClient kind (.finish { call, status, reply := empty })
  | .next => calls.onClient kind .next
  | .stop => calls.onClient kind .stop

end RemoteCalls

end Quintet
