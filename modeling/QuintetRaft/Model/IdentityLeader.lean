import QuintetRaft.Model.Identities

/-!
# Leader

`IdentityLeader.cpp`.  `tryAppendEntries` runs in one thread for each follower and is cut at its
message, its reply and the iterations of its counting loop; the cursor of the thread is the
`AppendingThread` of the follower's node.
-/

namespace Quintet

namespace Server

/-- `IdentityLeader::RPCAppendEntries`. -/
def leaderAppendEntries (msg : AppendEntriesMessage) (srv : Server) :
    Server × Reply × List Output :=
  srv.defaultRPCAppendEntries msg .leader

/-- `IdentityLeader::RPCRequestVote`. -/
def leaderRequestVote (msg : RequestVoteMessage) (srv : Server) :
    Server × Reply × List Output :=
  srv.defaultRPCRequestVote msg .leader

/-! ## AddLog -/

/-- The entry an `AddLogMessage` asks for. -/
def logEntry (msg : AddLogMessage) (term : Nat) : LogEntry :=
  { term := term
    opName := msg.opName
    args := msg.args
    prmIdx := msg.prmIdx
    srvId := msg.srvId }

/-- The scan of `addLog` finds an entry of the same operation. -/
def holdsOperation (state : ServerState) (msg : AddLogMessage) : Prop :=
  ∃ entry ∈ state.entries, entry.srvId = msg.srvId ∧ entry.prmIdx = msg.prmIdx

instance (state : ServerState) (msg : AddLogMessage) : Decidable (holdsOperation state msg) :=
  inferInstanceAs (Decidable (∃ _ ∈ _, _))

/-- Append one entry to the log. -/
def pushEntry (entry : LogEntry) (srv : Server) : Server :=
  { srv with
    state := { srv.state with
      entries := srv.state.entries ++ [entry]
      entries_ne := by simp } }

/-- `IdentityLeader::Impl::addLog` up to the release of `entriesM`. -/
def addLog (info : ServerInfo) (msg : AddLogMessage) (srv : Server) : Server × List Output :=
  if holdsOperation srv.state msg then
    (srv, [.addLogReply msg { success := true, leaderId := info.localId }])
  else
    ({ srv.pushEntry (logEntry msg srv.state.currentTerm) with leader.addingLog := some msg }, [])

/-- The rest of `IdentityLeader::Impl::addLog`, under `logStatesM`. -/
def addLogState (info : ServerInfo) (msg : AddLogMessage) (srv : Server) :
    Server × List Output :=
  ({ srv with
      leader.logStates := srv.leader.logStates ++ [1]
      leader.addingLog := none },
    [.addLogReply msg { success := true, leaderId := info.localId }])

/-! ## AppendEntries -/

/-- `createAppendEntriesMessage`; `none` when `entries.at` throws. -/
def createAppendEntriesMessage (info : ServerInfo) (start : Nat) (srv : Server) :
    Option AppendEntriesMessage :=
  (termAt srv.state.entries (start - 1)).map fun prevLogTerm =>
    { term := srv.state.currentTerm
      leaderId := info.localId
      prevLogIdx := start - 1
      prevLogTerm
      logEntries := srv.state.entries.drop start
      commitIdx := srv.state.commitIdx }

/-- Replace the node of one follower. -/
def setNode (target : ServerId) (node : FollowerNode) (srv : Server) : Server :=
  { srv with leader.followerNodes := Function.update srv.leader.followerNodes target (some node) }

section SetNode

variable (target : ServerId) (node : FollowerNode) (srv : Server)

@[simp] theorem setNode_state : (srv.setNode target node).state = srv.state := rfl
@[simp] theorem setNode_identity : (srv.setNode target node).identity = srv.identity := rfl
@[simp] theorem setNode_events : (srv.setNode target node).events = srv.events := rfl
@[simp] theorem setNode_candidate : (srv.setNode target node).candidate = srv.candidate := rfl
@[simp] theorem setNode_termTriggered :
    (srv.setNode target node).termTriggered = srv.termTriggered := rfl

@[simp] theorem setNode_leader :
    (srv.setNode target node).leader =
      { srv.leader with
        followerNodes := Function.update srv.leader.followerNodes target (some node) } := rfl

end SetNode

/-- The heartbeat starts the appending thread of a follower, which reads `oldMatchIdx`. -/
def startAppending (target : ServerId) (node : FollowerNode) (srv : Server) : Server :=
  srv.setNode target { node with appendingThread := .trying node.matchIdx 0 }

/-- The appending thread returns. -/
def finishAppending (target : ServerId) (node : FollowerNode) (srv : Server) : Server :=
  srv.setNode target { node with appendingThread := .finished }

/-- `sendAppendEntries` throws an `RpcError`. -/
def retryAppending (target : ServerId) (node : FollowerNode) (oldMatchIdx : Nat)
    (retryTimes : Nat) (srv : Server) : Server :=
  if 2 < retryTimes + 1 then
    srv.finishAppending target node
  else
    srv.setNode target { node with appendingThread := .trying oldMatchIdx (retryTimes + 1) }

/-- The body of the loop of `tryAppendEntries` after the reply has arrived. -/
def receiveAppendReply (target : ServerId) (node : FollowerNode) (oldMatchIdx : Nat)
    (retryTimes : Nat) (msg : AppendEntriesMessage) (reply : Reply) (srv : Server) : Server :=
  if reply.2 then
    srv.setNode target
      { nextIdx := node.nextIdx + msg.logEntries.length
        matchIdx := node.nextIdx + msg.logEntries.length - 1
        appendingThread := .counting (oldMatchIdx + 1) }
  else if srv.state.currentTerm < reply.1 then
    ({ srv with state.currentTerm := reply.1 }.notify .follower reply.1).finishAppending target node
  else if node.nextIdx = 1 then
    srv.finishAppending target node
  else
    srv.setNode target
      { node with
        nextIdx := node.nextIdx - 1
        appendingThread := .trying oldMatchIdx retryTimes }

/-- The commit branch of the counting loop. -/
def raiseCommit (idx : Nat) (srv : Server) : Server :=
  { srv with state.commitIdx := max srv.state.commitIdx idx }

/-- One iteration of the counting loop, or its end with the final `applyReadyEntries`. -/
def countReplica (info : ServerInfo) (target : ServerId) (node : FollowerNode) (idx : Nat)
    (srv : Server) : Server × List Output :=
  match srv.leader.logStates[idx]? with
  | some replicateNum =>
      let srv :=
        { srv.setNode target { node with appendingThread := .counting (idx + 1) } with
          leader.logStates := srv.leader.logStates.set idx (replicateNum + 1) }
      (if info.exceedsHalf (replicateNum + 1) then srv.raiseCommit idx else srv, [])
  | none => (srv.finishAppending target node).applyReadyEntries

/-! ## Taking and leaving office -/

/-- `IdentityLeader::Impl::reinitStates`, followed by the rest of `init`. -/
def leaderInit (info : ServerInfo) (srv : Server) : Server :=
  { srv with
    leader.followerNodes := fun target =>
      if target ∈ info.others then some ((srv.leader.followerNodes target).getD {})
      else srv.leader.followerNodes target
    leader.logStates := List.replicate srv.state.entries.length 1
    leader.initTerm := srv.state.currentTerm
    leader.initSize := srv.state.entries.length }

/-- `IdentityLeader::Impl::leave`, once every appending thread has returned. -/
def leaderLeave (srv : Server) : Server :=
  { srv with
    leader.followerNodes := fun _ => none
    leader.logStates := [] }

/-- No appending thread is inside its counting loop. -/
def noneCounting (info : ServerInfo) (srv : Server) : Prop :=
  ∀ target ∈ info.others, ∀ node ∈ srv.leader.followerNodes target,
    node.appendingThread.isCounting = false

instance (info : ServerInfo) (srv : Server) : Decidable (srv.noneCounting info) :=
  inferInstanceAs (Decidable (∀ _ ∈ _, ∀ _ ∈ _, _))

end Server

end Quintet
