import QuintetRaft.Model.Cluster
import QuintetRaft.Model.RemoteCalls

/-!
# The cluster on the wire

The servers of a cluster together with what lies between them.  A request crosses the network as
the bytes that the stub has written, and the server that it goes to acts on what its service reads
from them; the reply crosses it as the bytes that the service has written, and the caller acts on
what it reads from those.  gRPC tells calls apart and may delay, lose, reorder and repeat them.
-/

namespace Quintet

open Rpc WireFormat

namespace Rpc

variable (runtime : Runtime)

/-- The message that the service reads from the bytes of a request. -/
def PeerBytes.read : PeerBytes → Option PeerRequest
  | .appendEntries bytes =>
      ((PbAppendEntriesMessage.messages runtime).parse bytes).map fun request =>
        .appendEntries request.convertAppendEntriesMessage
  | .requestVote bytes =>
      ((PbRequestVoteMessage.messages runtime).parse bytes).map fun request =>
        .requestVote request.convertRequestVoteMessage

/-- The bytes in which the service answers. -/
def writeReply (reply : Reply) : Bytes :=
  PbReply.serializeWithCachedSizes runtime
    ((PbReply.messages runtime).copyFrom (convertReply reply))

/-- A service reads the request, calls the function bound and writes its reply. -/
theorem peers_serve (f : PeerRequest → Reply) (bytes : PeerBytes) :
    (peers runtime).serve f bytes =
      (bytes.read runtime).map fun msg => writeReply runtime (f msg) := by
  cases bytes <;> simp only [peers, PeerBytes.read, Option.map_map] <;> rfl

namespace PeerRequest

/-- The server that asks. -/
def sender : PeerRequest → ServerId
  | .appendEntries msg => msg.leaderId
  | .requestVote msg => msg.candidateId

/-- The request goes out. -/
def output (target : ServerId) : PeerRequest → Output
  | .appendEntries msg => .appendEntries target msg
  | .requestVote msg => .requestVote target msg

/-- The request is answered. -/
def answer (reply : Reply) : PeerRequest → Output
  | .appendEntries msg => .appendReply msg reply
  | .requestVote msg => .voteReply msg reply

/-- A server handles the request. -/
def handled : PeerRequest → Event
  | .appendEntries msg => .rpcAppendEntries msg
  | .requestVote msg => .rpcRequestVote msg

/-- The thread that has asked gets the reply. -/
def answered (target : ServerId) (reply : Reply) : PeerRequest → Event
  | .appendEntries msg => .receiveAppendReply target msg reply
  | .requestVote msg => .receiveVote target msg reply

end PeerRequest

end Rpc

/-- The request that goes out, and where it goes. -/
def Output.request : Output → Option (ServerId × PeerRequest)
  | .requestVote target msg => some (target, .requestVote msg)
  | .appendEntries target msg => some (target, .appendEntries msg)
  | _ => none

/-- The reply that is given, and the request that it answers. -/
def Output.reply : Output → Option (PeerRequest × Reply)
  | .voteReply msg reply => some (.requestVote msg, reply)
  | .appendReply msg reply => some (.appendEntries msg, reply)
  | _ => none

/-- Nothing arrives from another server. -/
def Event.Local : Event → Prop
  | .rpcRequestVote _ | .rpcAppendEntries _ | .receiveVote _ _ _ | .receiveAppendReply _ _ _ =>
      False
  | _ => True

instance : (event : Event) → Decidable event.Local
  | .rpcRequestVote _ | .rpcAppendEntries _ | .receiveVote _ _ _ | .receiveAppendReply _ _ _ =>
      .isFalse id
  | .rpcAddLog _ | .addLogState | .timeout | .transform | .startAppending _
  | .interruptAppending _ | .sendAppendEntries _ | .failAppendEntries _ | .countReplica _ =>
      .isTrue trivial

/-- A call of one server to another. -/
structure PeerCall where
  /-- The server that has made it. -/
  caller : ServerId
  /-- The server that it goes to. -/
  target : ServerId
  /-- The message, which stays with the thread that waits for the reply. -/
  msg : PeerRequest
  /-- What the stub has put on the network. -/
  bytes : PeerBytes
  deriving DecidableEq, Repr

/-- The reply to a call. -/
structure PeerReply where
  /-- The number of the call. -/
  call : ℕ
  /-- What the service has put on the network. -/
  bytes : Bytes
  deriving DecidableEq, Repr

/-- The servers with the calls and the replies on the network. -/
structure WireCluster where
  /-- The servers. -/
  nodes : Cluster := Cluster.init
  /-- The calls that have been made, by number. -/
  calls : List PeerCall := []
  /-- The replies that have been given. -/
  replies : List PeerReply := []

/-- What happens in such a cluster. -/
inductive WireEvent
  /-- A server does something that needs nothing from the network. -/
  | act (self : ServerId) (event : Event)
  /-- A call reaches the service of its target. -/
  | handle (call : ℕ)
  /-- A reply reaches the caller. -/
  | finish (reply : PeerReply)

namespace WireCluster

variable (runtime : Runtime) (config : ClusterConfig)

/-- The call that a stub makes of an output. -/
def callOf (self : ServerId) (output : Output) : Option PeerCall :=
  output.request.map fun (target, msg) =>
    { caller := self, target, msg, bytes := (peers runtime).send msg }

/-- The reply that the service makes of an output, while it serves a call. -/
def replyOf (serving : Option ℕ) (output : Output) : Option PeerReply :=
  serving.bind fun call => output.reply.map fun (_, reply) =>
    { call, bytes := writeReply runtime reply }

/-- A server takes a step and puts on the network what it sends. -/
def perform (self : ServerId) (event : Event) (serving : Option ℕ) (wire : WireCluster) :
    Option WireCluster :=
  if self ∈ config.srvList then
    ((wire.nodes self).server.step (config.info self) event).map fun (server, outputs) =>
      { nodes := Function.update wire.nodes self
          { server, sent := (wire.nodes self).sent ++ outputs }
        calls := wire.calls ++ outputs.filterMap (callOf runtime self)
        replies := wire.replies ++ outputs.filterMap (replyOf runtime serving) }
  else none

/-- One step of the cluster. -/
def step (wire : WireCluster) : WireEvent → Option WireCluster
  | .act self event =>
      if event.Local then wire.perform runtime config self event none else none
  | .handle number => do
      let call ← wire.calls[number]?
      let msg ← call.bytes.read runtime
      wire.perform runtime config call.target msg.handled (some number)
  | .finish reply =>
      if reply ∈ wire.replies then do
        let call ← wire.calls[reply.call]?
        let answer ← (peers runtime).receive reply.bytes
        wire.perform runtime config call.caller
          (call.msg.answered call.target (Quintet.convertReply answer)) none
      else none

end WireCluster

end Quintet
