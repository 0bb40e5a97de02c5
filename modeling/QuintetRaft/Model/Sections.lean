import QuintetRaft.Library.Sections
import QuintetRaft.Model.Cluster

/-!
# The threads of a server

What a server does for one event of `Server.step`, cut at its accesses to the shared state: a
section is what a thread does in the scope of one lock, or one read or write of data that no lock
protects.  `checkRpcTerm` and the tests of a handler lock one after the other, step 5 of
`defaultRPCAppendEntries` and `IdentityCandidate::init` lock nothing, and `RpcService::pause` keeps
new RPCs out but does not wait for the one that is running.
-/

namespace Quintet

open Sections (Act Process Program)

/-- What a thread does in its next section. -/
inductive Section
  /-- `Raft::Impl::RPCRequestVote` reads `currentIdentity`. -/
  | dispatchRequestVote (msg : RequestVoteMessage)
  /-- `checkRpcTerm` at the beginning of `defaultRPCRequestVote`, under `currentTermM`. -/
  | checkVoteTerm (msg : RequestVoteMessage) (identity : ServerIdentityNo)
  /-- Its step 1, which reads `currentTerm`. -/
  | refuseVote (msg : RequestVoteMessage) (identity : ServerIdentityNo)
  /-- Its step 2, under `currentTermM` and `voteForM`. -/
  | adoptTerm (msg : RequestVoteMessage) (identity : ServerIdentityNo)
  /-- The test after that, under `voteForM` and `entriesM`. -/
  | testVote (msg : RequestVoteMessage)
  /-- It reads `currentTerm` for its answer, when it grants the vote still under these. -/
  | answerVote (msg : RequestVoteMessage) (granted : Bool)
  /-- `Raft::Impl::RPCAppendEntries` reads `currentIdentity`. -/
  | dispatchAppendEntries (msg : AppendEntriesMessage)
  /-- `IdentityFollower::Impl::appendEntries` reads `currentTerm`. -/
  | followerTerm (msg : AppendEntriesMessage)
  /-- `IdentityCandidate::RPCAppendEntries` reads `currentTerm`. -/
  | candidateTerm (msg : AppendEntriesMessage)
  /-- It notifies that it steps down. -/
  | candidateNotify (msg : AppendEntriesMessage) (curTerm : Nat)
  /-- `checkRpcTerm` at the beginning of `defaultRPCAppendEntries`. -/
  | checkAppendTerm (msg : AppendEntriesMessage) (identity : ServerIdentityNo)
  /-- It reads `currentTerm`, for its step 1. -/
  | readTerm (msg : AppendEntriesMessage)
  /-- Its step 2, under `entriesM`. -/
  | matchLog (msg : AppendEntriesMessage) (curTerm : Nat)
  /-- Its steps 3 and 4, under `entriesM`. -/
  | replicate (msg : AppendEntriesMessage) (curTerm : Nat)
  /-- Its step 5 reads `commitIdx`, under no lock. -/
  | readCommit (msg : AppendEntriesMessage) (curTerm : Nat)
  /-- Its step 5 writes `commitIdx`, under no lock. -/
  | writeCommit (msg : AppendEntriesMessage) (curTerm : Nat)
  /-- The deferred `applyReadyEntries` compares the indices, under `entriesM`, `commitIdxM` and
  `lastAppliedM`.  The handler has this answer to give. -/
  | compareIndices (answer : List Output)
  /-- It copies entries, still under these. -/
  | copyEntries (answer : List Output)
  /-- It writes `lastApplied`. -/
  | writeApplied (entriesToApply : List BasicLogEntry) (answer : List Output)
  /-- It hands the entries over. -/
  | handOver (entriesToApply : List BasicLogEntry) (answer : List Output)
  /-- `Raft::Impl::RPCAddLog` reads `currentIdentity`. -/
  | dispatchAddLog (msg : AddLogMessage)
  /-- `IdentityLeader::Impl::addLog` reads `currentTerm`. -/
  | readAddTerm (msg : AddLogMessage)
  /-- It scans and extends the log, under `entriesM`. -/
  | storeEntry (msg : AddLogMessage) (term : Nat)
  /-- The callback of the election timer notifies, with the term it has read. -/
  | notifyTimeout (term : Nat)
  /-- `Raft::Impl::transform` writes `currentIdentity`. -/
  | assignIdentity (target : ServerIdentityNo)
  /-- `IdentityCandidate::Impl::init` reads `currentTerm`. -/
  | readOwnTerm
  /-- It writes `currentTerm`. -/
  | writeOwnTerm (term : Nat)
  /-- It writes `votedFor`. -/
  | voteForSelf
  /-- It resets `votesReceived`. -/
  | resetVotes
  /-- Being a majority by itself, it notifies. -/
  | winAlone
  /-- `requestVotes` reads `currentTerm` for the first of these servers. -/
  | requestVotes (srvList : List ServerId)
  /-- It reads the end of the log, under `entriesM`, and starts the thread for this server. -/
  | startRequest (target : ServerId) (srvList : List ServerId) (term : Nat)
  /-- `IdentityLeader::Impl::init`. -/
  | reinitStates
  /-- A request thread counts its vote. -/
  | countVote (msg : RequestVoteMessage)
  /-- It compares the votes. -/
  | compareVotes (msg : RequestVoteMessage)
  /-- `createAppendEntriesMessage` reads `commitIdx`, after `currentTerm`. -/
  | readCommitIdx (target : ServerId) (term : Nat)
  /-- It reads the log, under `entriesM`. -/
  | buildMessage (target : ServerId) (term : Nat) (commitIdx : Nat)
  /-- The counting loop reads `commitIdx`, under `commitIdxM`. -/
  | compareCommit (idx : Nat)
  /-- It writes `commitIdx`, still under `commitIdxM`. -/
  | raiseCommit (newCommitIdx : Nat)
  deriving DecidableEq, Repr

/-- The mutexes that a thread holds from one section to the next. -/
inductive StateMutex
  | voteForM | entriesM | commitIdxM | lastAppliedM
  deriving DecidableEq, Repr

namespace Section

/-- The locks under which a thread has begun what it does next, and whether they are exclusive. -/
def held : Section → List (StateMutex × Bool)
  | answerVote _ true => [(.voteForM, true), (.entriesM, false)]
  | copyEntries _ | writeApplied _ _ | handOver _ _ =>
      [(.entriesM, false), (.commitIdxM, false), (.lastAppliedM, true)]
  | raiseCommit _ => [(.commitIdxM, true)]
  | _ => []

/-- The locks of these that a section begins with. -/
def taken : Section → List (StateMutex × Bool)
  | adoptTerm _ _ => [(.voteForM, true)]
  | testVote _ => [(.voteForM, true), (.entriesM, false)]
  | replicate _ _ | storeEntry _ _ => [(.entriesM, true)]
  | compareIndices _ => [(.entriesM, false), (.commitIdxM, false), (.lastAppliedM, true)]
  | compareCommit _ => [(.commitIdxM, true)]
  | _ => []

/-- What a section gives: the server, what it sends, and the next section. -/
abbrev Result := Server × List Output × Option Section

/-- The next section comes without further effect. -/
def next (srv : Server) (section' : Section) : Option Result := some (srv, [], some section')

/-- The thread has come to its end. -/
def finish (srv : Server) (outputs : List Output) : Option Result := some (srv, outputs, none)

theorem next_eq_some {srv after : Server} {section' : Section} {outputs : List Output}
    {later : Option Section} :
    next srv section' = some (after, outputs, later) ↔
      after = srv ∧ outputs = [] ∧ later = some section' := by
  simp [next, eq_comm]

theorem finish_eq_some {srv after : Server} {sent outputs : List Output}
    {later : Option Section} :
    finish srv sent = some (after, outputs, later) ↔
      after = srv ∧ outputs = sent ∧ later = none := by
  simp [finish, eq_comm]

/-- What a section does; `none` when `entries.at` throws. -/
def go (info : ServerInfo) (srv : Server) : Section → Option Result
  | dispatchRequestVote msg =>
      match srv.identity with
      | .follower | .candidate | .leader => next srv (.checkVoteTerm msg srv.identity)
      | .bogus => finish srv [.voteReply msg (0, false)]
      | .down | .error => finish srv [.voteReply msg (invalidTerm, false)]
  | checkVoteTerm msg identity =>
      next (srv.checkRpcTerm msg.term identity).1 (.refuseVote msg identity)
  | refuseVote msg identity =>
      next srv (if msg.term < srv.state.currentTerm then .answerVote msg false
        else .adoptTerm msg identity)
  | adoptTerm msg identity =>
      if srv.state.currentTerm < msg.term then
        let granted :=
          { srv with state.votedFor := msg.candidateId, state.currentTerm := msg.term }
        next (if identity ≠ .follower then granted.notify .follower msg.term else granted)
          (.compareIndices [.voteReply msg (msg.term, true)])
      else next srv (.testVote msg)
  | testVote msg =>
      if (srv.state.votedFor = nullServerId ∨ srv.state.votedFor = msg.candidateId) ∧
          upToDate srv.state msg.lastLogIdx msg.lastLogTerm then
        next { srv with state.votedFor := msg.candidateId } (.answerVote msg true)
      else next srv (.answerVote msg false)
  | answerVote msg granted =>
      next srv (.compareIndices [.voteReply msg (srv.state.currentTerm, granted)])
  | dispatchAppendEntries msg =>
      match srv.identity with
      | .follower => next srv (.followerTerm msg)
      | .candidate => next srv (.candidateTerm msg)
      | .leader => next srv (.checkAppendTerm msg .leader)
      | .bogus => finish srv [.appendReply msg (0, false)]
      | .down | .error => finish srv [.appendReply msg (invalidTerm, false)]
  | followerTerm msg =>
      if msg.term < srv.state.currentTerm then
        finish srv [.appendReply msg (srv.state.currentTerm, false)]
      else next srv (.checkAppendTerm msg .follower)
  | candidateTerm msg =>
      next srv (if msg.term = srv.state.currentTerm then
        .candidateNotify msg srv.state.currentTerm else .checkAppendTerm msg .candidate)
  | candidateNotify msg curTerm =>
      next (srv.notify .follower curTerm) (.checkAppendTerm msg .candidate)
  | checkAppendTerm msg identity =>
      next (srv.checkRpcTerm msg.term identity).1 (.readTerm msg)
  | readTerm msg =>
      next srv (if msg.term < srv.state.currentTerm then
        .compareIndices [.appendReply msg (srv.state.currentTerm, false)]
        else .matchLog msg srv.state.currentTerm)
  | matchLog msg curTerm =>
      next srv (if termAt srv.state.entries msg.prevLogIdx ≠ some msg.prevLogTerm then
        .compareIndices [.appendReply msg (curTerm, false)] else .replicate msg curTerm)
  | replicate msg curTerm =>
      next { srv with state := srv.state.replicate msg } (.readCommit msg curTerm)
  | readCommit msg curTerm =>
      next srv (if srv.state.commitIdx < msg.commitIdx then .writeCommit msg curTerm
        else .compareIndices [.appendReply msg (curTerm, true)])
  | writeCommit msg curTerm =>
      next { srv with state.commitIdx := min msg.commitIdx (srv.state.entries.length - 1) }
        (.compareIndices [.appendReply msg (curTerm, true)])
  | compareIndices answer =>
      if srv.state.commitIdx ≤ srv.state.lastApplied then finish srv answer
      else next srv (.copyEntries answer)
  | copyEntries answer =>
      next srv (.writeApplied (((srv.state.entries.take (srv.state.commitIdx + 1)).drop
        (srv.state.lastApplied + 1)).map LogEntry.toBasic) answer)
  | writeApplied entriesToApply answer =>
      next { srv with state.lastApplied := srv.state.commitIdx } (.handOver entriesToApply answer)
  | handOver entriesToApply answer => finish srv (.apply entriesToApply :: answer)
  | dispatchAddLog msg =>
      match srv.identity with
      | .leader => next srv (.readAddTerm msg)
      | _ => finish srv [.addLogReply msg Server.defaultAddLog]
  | readAddTerm msg => next srv (.storeEntry msg srv.state.currentTerm)
  | storeEntry msg term =>
      if Server.holdsOperation srv.state msg then
        finish srv [.addLogReply msg { success := true, leaderId := info.localId }]
      else
        -- the counter is added in an event of its own
        finish { srv.pushEntry (Server.logEntry msg term) with leader.addingLog := some msg } []
  | notifyTimeout term => finish (srv.notify .candidate term) []
  | assignIdentity target =>
      let srv := { srv with identity := target }
      match target with
      | .candidate => next srv .readOwnTerm
      | .leader => next srv .reinitStates
      | _ => finish srv []
  | readOwnTerm => next srv (.writeOwnTerm srv.state.currentTerm)
  | writeOwnTerm term =>
      next { srv with state.currentTerm := incrementTerm term } .voteForSelf
  | voteForSelf => next { srv with state.votedFor := info.localId } .resetVotes
  | resetVotes =>
      some ({ srv with candidate.votesReceived := 1 }, [.candidacy srv.state.currentTerm],
        some (if info.exceedsHalf 1 then .winAlone else .requestVotes info.others))
  | winAlone => next (srv.notify .leader srv.state.currentTerm) (.requestVotes info.others)
  | requestVotes [] => finish srv []
  | requestVotes (target :: srvList) =>
      next srv (.startRequest target srvList srv.state.currentTerm)
  | startRequest target srvList term =>
      let msg : RequestVoteMessage :=
        { term
          candidateId := info.localId
          lastLogIdx := srv.state.entries.length - 1
          lastLogTerm := srv.state.lastTerm }
      some ({ srv with candidate.requests := srv.candidate.requests ++ [(target, msg)] },
        [.requestVote target msg], some (.requestVotes srvList))
  | reinitStates => finish (srv.leaderInit info) []
  | countVote msg =>
      next { srv with candidate.votesReceived := srv.candidate.votesReceived + 1 }
        (.compareVotes msg)
  | compareVotes msg =>
      finish (if info.exceedsHalf srv.candidate.votesReceived then srv.notify .leader msg.term
        else srv) []
  | readCommitIdx target term => next srv (.buildMessage target term srv.state.commitIdx)
  | buildMessage target term commitIdx =>
      match srv.leader.followerNodes target with
      | some node =>
          match node.appendingThread with
          | .trying oldMatchIdx retryTimes =>
              (termAt srv.state.entries (node.nextIdx - 1)).bind fun prevLogTerm =>
                let msg : AppendEntriesMessage :=
                  { term
                    leaderId := info.localId
                    prevLogIdx := node.nextIdx - 1
                    prevLogTerm
                    logEntries := srv.state.entries.drop node.nextIdx
                    commitIdx }
                finish (srv.setNode target
                  { node with appendingThread := .sending oldMatchIdx retryTimes msg })
                  [.appendEntries target msg]
          | _ => none
      | none => none
  | compareCommit idx =>
      if srv.state.commitIdx < idx then next srv (.raiseCommit idx) else finish srv []
  | raiseCommit newCommitIdx =>
      finish { srv with state.commitIdx := newCommitIdx } []

end Section

/-- The threads of a server. -/
inductive Owner
  /-- The RPC that runs. -/
  | rpc
  /-- The timer of a follower or candidate. -/
  | timer
  /-- The event queue. -/
  | eventQueue
  /-- The thread of a vote request. -/
  | request (target : ServerId) (msg : RequestVoteMessage)
  /-- The thread of a follower. -/
  | appending (target : ServerId)
  deriving DecidableEq, Repr

namespace Event

/-- The thread in which an event happens. -/
def owner : Event → Owner
  | rpcRequestVote _ | rpcAppendEntries _ | rpcAddLog _ | addLogState => .rpc
  | timeout => .timer
  | transform => .eventQueue
  | receiveVote target msg _ => .request target msg
  | startAppending target | interruptAppending target | sendAppendEntries target
  | failAppendEntries target | receiveAppendReply target _ _ | countReplica target =>
      .appending target

/-- The event waits in `RpcService` until it is not paused. -/
def IsRpc : Event → Bool
  | rpcRequestVote _ | rpcAppendEntries _ | rpcAddLog _ => true
  | _ => false

/-- An event begins.  A transformation begins here when `leave` has joined the threads of the
identity. -/
def start (info : ServerInfo) (srv : Server) (event : Event) : Option Section.Result :=
  match event with
  | .rpcRequestVote msg =>
      if srv.leader.addingLog = none then Section.next srv (.dispatchRequestVote msg) else none
  | .rpcAppendEntries msg =>
      if srv.leader.addingLog = none then Section.next srv (.dispatchAppendEntries msg) else none
  | .rpcAddLog msg =>
      if srv.leader.addingLog = none then Section.next srv (.dispatchAddLog msg) else none
  | .timeout =>
      if srv.identity = .follower ∨ srv.identity = .candidate then
        Section.next srv (.notifyTimeout srv.state.currentTerm)
      else none
  | .transform =>
      match srv.events with
      | [] => none
      | (target, _) :: rest =>
          if srv.identity = .leader → srv.noneCounting info then
            Section.next ({ srv with events := rest }.leave) (.assignIdentity target)
          else none
  | .receiveVote target msg reply =>
      if srv.candidate.requests.contains (target, msg) then
        let srv := { srv with candidate.requests := srv.candidate.requests.erase (target, msg) }
        if reply.1 ≠ msg.term ∨ reply.2 = false then Section.finish srv []
        else Section.next srv (.countVote msg)
      else none
  | .sendAppendEntries target =>
      match srv.leader.followerNodes target with
      | some node =>
          match node.appendingThread with
          | .trying _ _ => Section.next srv (.readCommitIdx target srv.state.currentTerm)
          | _ => none
      | none => none
  | .countReplica target =>
      match srv.leader.followerNodes target with
      | some node =>
          match node.appendingThread with
          | .counting idx =>
              match srv.leader.logStates[idx]? with
              | some replicateNum =>
                  let counted :=
                    { srv.setNode target { node with appendingThread := .counting (idx + 1) } with
                      leader.logStates := srv.leader.logStates.set idx (replicateNum + 1) }
                  if info.exceedsHalf (replicateNum + 1) then
                    Section.next counted (.compareCommit idx)
                  else Section.finish counted []
              | none => Section.next (srv.finishAppending target node) (.compareIndices [])
          | _ => none
      | none => none
  -- the others are a single section
  | .addLogState | .startAppending _ | .interruptAppending _ | .failAppendEntries _
  | .receiveAppendReply _ _ _ =>
      (srv.step info event).map fun (after, outputs) => (after, outputs, none)

end Event

/-- A thread in the middle of its work. -/
structure ServerThread where
  /-- Which one it is. -/
  owner : Owner
  /-- What it does next. -/
  next : Section
  deriving DecidableEq, Repr

namespace Server

/-- The handlers, callbacks and transformations of a server, in sections.  A transformation pauses
the RPCs and has joined all threads but these. -/
def sections (info : ServerInfo) : Program Server Event Output ServerThread where
  start srv event :=
    (event.start info srv).map fun (after, outputs, next) =>
      (after, outputs, next.map fun next => { owner := event.owner, next })
  go thread srv :=
    (thread.next.go info srv).map fun (after, outputs, next) =>
      (after, outputs, next.map fun next => { thread with next })
  admits running event :=
    running.all fun thread => thread.owner ≠ event.owner ∧
      (event.IsRpc → thread.owner ≠ .eventQueue) ∧ (event = .transform → thread.owner = .rpc)
  blocks other thread :=
    other.next.held.any fun (lock, exclusive) => thread.next.taken.any fun (lock', exclusive') =>
      lock = lock' ∧ (exclusive ∨ exclusive')

end Server

/-- A server with the threads that are in the middle of their work. -/
abbrev ServerProcess := Process Server Output ServerThread

/-- The server without its threads. -/
def ServerProcess.node (process : ServerProcess) : Node where
  server := process.state
  sent := process.sent

/-- The servers of a cluster with their threads. -/
abbrev ThreadedCluster := ServerId → ServerProcess

namespace ThreadedCluster

/-- Every server starts as a follower with an empty log, and nothing goes on. -/
def init : ThreadedCluster := fun _ => { state := {} }

/-- The servers without their threads. -/
def nodes (cluster : ThreadedCluster) : Cluster := fun id => (cluster id).node

/-- The message or reply that a beginning event consumes has been sent. -/
def Delivered (cluster : ThreadedCluster) (self : ServerId) : Act Event → Prop
  | .start event => cluster.nodes.Delivered self event
  | .go _ => True

instance (cluster : ThreadedCluster) (self : ServerId) :
    (act : Act Event) → Decidable (cluster.Delivered self act)
  | .start event => inferInstanceAs (Decidable (cluster.nodes.Delivered self event))
  | .go _ => .isTrue trivial

/-- One section of one thread of one server. -/
def step (config : ClusterConfig) (cluster : ThreadedCluster) (label : ServerId × Act Event) :
    Option ThreadedCluster :=
  if label.1 ∈ config.srvList ∧ cluster.Delivered label.1 label.2 then
    ((cluster label.1).step (Server.sections (config.info label.1)) label.2).map
      (Function.update cluster label.1)
  else none

variable {config : ClusterConfig} {before after : ThreadedCluster} {label : ServerId × Act Event}

theorem step_eq_some :
    step config before label = some after ↔
      (label.1 ∈ config.srvList ∧ before.Delivered label.1 label.2) ∧ ∃ process,
        (before label.1).step (Server.sections (config.info label.1)) label.2 = some process ∧
          after = Function.update before label.1 process := by
  simp only [step, Option.ite_none_right_eq_some, Option.map_eq_some_iff, eq_comm (b := after)]

end ThreadedCluster

/-- Events that happen one after the other, each with so many sections after its first. -/
def serially {ε : Type} (events : List ε) (sections : List Nat) : List (Act ε) :=
  (events.zip sections).flatMap fun (event, count) =>
    .start event :: List.replicate count (.go 0)

/-- The same for events of several servers. -/
def seriallyAt (labels : List (ServerId × Event)) (sections : List Nat) :
    List (ServerId × Act Event) :=
  (labels.zip sections).flatMap fun ((id, event), count) =>
    (id, .start event) :: List.replicate count (id, .go 0)

/-- Sections of one server. -/
def sectionsAt (id : ServerId) (acts : List (Act Event)) : List (ServerId × Act Event) :=
  acts.map (id, ·)

end Quintet
