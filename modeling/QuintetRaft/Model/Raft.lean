import QuintetRaft.Model.IdentityLeader

/-!
# Steps of one server

`Raft.cpp`: the dispatch of RPCs to the current identity, the execution of queued transformations,
and the step function of a server.  `RpcService` runs the handlers of one server one at a time, but
`pause` does not wait for a handler that has already started, so a transformation may fall between
the two halves of `addLog`.  That it falls between no other halves is assumed here: a handler of an
append or vote request and a transformation are single steps.
-/

namespace Quintet

/-- What can happen to a server. -/
inductive Event
  /-- A vote request is handled. -/
  | rpcRequestVote (msg : RequestVoteMessage)
  /-- An append request is handled. -/
  | rpcAppendEntries (msg : AppendEntriesMessage)
  /-- A client's request is handled, up to the release of `entriesM` when the leader stores it. -/
  | rpcAddLog (msg : AddLogMessage)
  /-- A suspended `addLog` extends `logStates`. -/
  | addLogState
  /-- The election timer fires. -/
  | timeout
  /-- The event queue executes its first transformation. -/
  | transform
  /-- A request thread of the candidate gets its reply. -/
  | receiveVote (target : ServerId) (msg : RequestVoteMessage) (reply : Reply)
  /-- The heartbeat starts an appending thread. -/
  | startAppending (target : ServerId)
  /-- An appending thread is interrupted. -/
  | interruptAppending (target : ServerId)
  /-- An appending thread builds and sends its message. -/
  | sendAppendEntries (target : ServerId)
  /-- The call of an appending thread fails. -/
  | failAppendEntries (target : ServerId)
  /-- An appending thread gets its reply. -/
  | receiveAppendReply (target : ServerId) (msg : AppendEntriesMessage) (reply : Reply)
  /-- An appending thread runs one iteration of its counting loop, or leaves the loop. -/
  | countReplica (target : ServerId)
  deriving DecidableEq, Repr

namespace Server

/-- `Raft::Impl::RPCAppendEntries`. -/
def rpcAppendEntries (msg : AppendEntriesMessage) (srv : Server) :
    Server × Reply × List Output :=
  match srv.identity with
  | .follower => srv.followerAppendEntries msg
  | .candidate => srv.candidateAppendEntries msg
  | .leader => srv.leaderAppendEntries msg
  | .bogus => (srv, (0, false), [])
  | .down | .error => (srv, (invalidTerm, false), [])

/-- `Raft::Impl::RPCRequestVote`. -/
def rpcRequestVote (msg : RequestVoteMessage) (srv : Server) : Server × Reply × List Output :=
  match srv.identity with
  | .follower => srv.followerRequestVote msg
  | .candidate => srv.candidateRequestVote msg
  | .leader => srv.leaderRequestVote msg
  | .bogus => (srv, (0, false), [])
  | .down | .error => (srv, (invalidTerm, false), [])

/-- `Raft::Impl::RPCAddLog`. -/
def rpcAddLog (info : ServerInfo) (msg : AddLogMessage) (srv : Server) : Server × List Output :=
  match srv.identity with
  | .leader => srv.addLog info msg
  | _ => (srv, [.addLogReply msg defaultAddLog])

/-- `leave` of the current identity. -/
def leave (srv : Server) : Server :=
  match srv.identity with
  | .candidate => srv.candidateLeave
  | .leader => srv.leaderLeave
  | _ => srv

/-- Change `currentIdentity` and run `init` of the new identity. -/
def enter (info : ServerInfo) (target : ServerIdentityNo) (srv : Server) :
    Server × List Output :=
  let srv := { srv with identity := target }
  match target with
  | .candidate => srv.candidateInit info
  | .leader => (srv.leaderInit info, [])
  | _ => (srv, [])

/-- `Raft::Impl::transform`. -/
def transform (info : ServerInfo) (target : ServerIdentityNo) (srv : Server) :
    Server × List Output :=
  srv.leave.enter info target

/-- One step of a server, with what it sends; `none` when the event cannot happen. -/
def step (info : ServerInfo) (srv : Server) : Event → Option (Server × List Output)
  | .rpcRequestVote msg =>
      if srv.leader.addingLog = none then
        let (after, reply, handed) := srv.rpcRequestVote msg
        some (after, handed ++ [.voteReply msg reply])
      else none
  | .rpcAppendEntries msg =>
      if srv.leader.addingLog = none then
        let (after, reply, handed) := srv.rpcAppendEntries msg
        some (after, handed ++ [.appendReply msg reply])
      else none
  | .rpcAddLog msg =>
      if srv.leader.addingLog = none then some (srv.rpcAddLog info msg) else none
  | .addLogState =>
      match srv.leader.addingLog with
      | some msg => if srv.noneCounting info then some (srv.addLogState info msg) else none
      | none => none
  | .timeout =>
      if srv.identity = .follower ∨ srv.identity = .candidate then
        some (srv.notify .candidate srv.state.currentTerm, [])
      else none
  | .transform =>
      match srv.events with
      | [] => none
      | (target, _) :: rest =>
          -- `IdentityLeader::Impl::leave` joins the appending threads
          if srv.identity = .leader → srv.noneCounting info then
            some ({ srv with events := rest }.transform info target)
          else none
  | .receiveVote target msg reply =>
      if (target, msg) ∈ srv.candidate.requests then
        some (srv.receiveVote info target msg reply, [])
      else none
  | .startAppending target =>
      match srv.leader.followerNodes target with
      | some node =>
          if node.appendingThread = .finished then some (srv.startAppending target node, [])
          else none
      | none => none
  | .interruptAppending target =>
      match srv.leader.followerNodes target with
      | some node =>
          if node.appendingThread.isCounting then none
          else some (srv.finishAppending target node, [])
      | none => none
  | .sendAppendEntries target =>
      match srv.leader.followerNodes target with
      | some node =>
          match node.appendingThread with
          | .trying oldMatchIdx retryTimes =>
              (srv.createAppendEntriesMessage info node.nextIdx).map fun msg =>
                (srv.setNode target
                  { node with appendingThread := .sending oldMatchIdx retryTimes msg },
                  [.appendEntries target msg])
          | _ => none
      | none => none
  | .failAppendEntries target =>
      match srv.leader.followerNodes target with
      | some node =>
          match node.appendingThread with
          | .sending oldMatchIdx retryTimes _ =>
              some (srv.retryAppending target node oldMatchIdx retryTimes, [])
          | _ => none
      | none => none
  | .receiveAppendReply target msg reply =>
      match srv.leader.followerNodes target with
      | some node =>
          match node.appendingThread with
          | .sending oldMatchIdx retryTimes sent =>
              if sent = msg then
                some (srv.receiveAppendReply target node oldMatchIdx retryTimes msg reply, [])
              else none
          | _ => none
      | none => none
  | .countReplica target =>
      match srv.leader.followerNodes target with
      | some node =>
          match node.appendingThread with
          | .counting idx => some (srv.countReplica info target node idx)
          | _ => none
      | none => none

end Server

/-- A server together with everything it has sent, answered and handed over, oldest first. -/
structure Node where
  /-- The server. -/
  server : Server := {}
  /-- Its outputs so far. -/
  sent : List Output := []

namespace Node

/-- One step of a server, recording its outputs. -/
def step (info : ServerInfo) (node : Node) (event : Event) : Option Node :=
  (node.server.step info event).map fun result =>
    { server := result.1
      sent := node.sent ++ result.2 }

end Node

end Quintet
