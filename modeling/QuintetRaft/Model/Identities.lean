import Mathlib.Data.List.Nodup
import QuintetRaft.Model.IdentityBaseImpl

/-!
# Follower and candidate

`IdentityFollower.cpp` and `IdentityCandidate.cpp`.  The heartbeat controller is not data of these
functions: an election timer may fire whenever the identity that armed it is current, so restarting
it changes nothing here.  `QuintetRaft.Model.ElectionTimer` adds that it fires but once.
-/

namespace Quintet

/-- Votes or replicas held by more than `srvList.size() / 2` servers. -/
def ServerInfo.exceedsHalf (info : ServerInfo) (count : Nat) : Prop :=
  info.srvList.length / 2 < count

instance (info : ServerInfo) (count : Nat) : Decidable (info.exceedsHalf count) :=
  inferInstanceAs (Decidable (_ < _))

/-- The other servers, in the order of `srvList`. -/
def ServerInfo.others (info : ServerInfo) : List ServerId :=
  info.srvList.filter (· ≠ info.localId)

namespace ServerInfo

variable {info : ServerInfo}

theorem others_nodup (distinct : info.srvList.Nodup) : info.others.Nodup :=
  distinct.filter _

theorem mem_others {target : ServerId} :
    target ∈ info.others ↔ target ∈ info.srvList ∧ target ≠ info.localId := by
  simp [others]

end ServerInfo

namespace Server

/-! ## Follower -/

/-- `IdentityFollower::Impl::appendEntries`. -/
def followerAppendEntries (msg : AppendEntriesMessage) (srv : Server) :
    Server × Reply × List Output :=
  if msg.term < srv.state.currentTerm then
    (srv, (srv.state.currentTerm, false), [])
  else
    srv.defaultRPCAppendEntries msg .follower

/-- `IdentityFollower::RPCRequestVote`. -/
def followerRequestVote (msg : RequestVoteMessage) (srv : Server) :
    Server × Reply × List Output :=
  srv.defaultRPCRequestVote msg .follower

/-! ## Candidate -/

/-- `IdentityCandidate::RPCAppendEntries`. -/
def candidateAppendEntries (msg : AppendEntriesMessage) (srv : Server) :
    Server × Reply × List Output :=
  let curTerm := srv.state.currentTerm
  let srv := if msg.term = curTerm then srv.notify .follower curTerm else srv
  srv.defaultRPCAppendEntries msg .candidate

/-- `IdentityCandidate::RPCRequestVote`. -/
def candidateRequestVote (msg : RequestVoteMessage) (srv : Server) :
    Server × Reply × List Output :=
  srv.defaultRPCRequestVote msg .candidate

/-- The message `IdentityCandidate::Impl::requestVotes` sends to every other server. -/
def createRequestVoteMessage (info : ServerInfo) (srv : Server) : RequestVoteMessage :=
  { term := srv.state.currentTerm
    candidateId := info.localId
    lastLogIdx := srv.state.entries.length - 1
    lastLogTerm := srv.state.lastTerm }

/-- The part of `IdentityCandidate::Impl::init` before `requestVotes`. -/
def campaign (info : ServerInfo) (srv : Server) : Server :=
  let srv :=
    { srv with
      state.currentTerm := incrementTerm srv.state.currentTerm
      state.votedFor := info.localId
      candidate.votesReceived := 1 }
  if info.exceedsHalf 1 then srv.notify .leader srv.state.currentTerm else srv

/-- `IdentityCandidate::Impl::init`: one request thread for every other server. -/
def candidateInit (info : ServerInfo) (srv : Server) : Server × List Output :=
  let srv := srv.campaign info
  let msg := srv.createRequestVoteMessage info
  ({ srv with candidate.requests := srv.candidate.requests ++ info.others.map (·, msg) },
    .candidacy srv.state.currentTerm :: info.others.map (.requestVote · msg))

/-- `IdentityCandidate::Impl::leave`. -/
def candidateLeave (srv : Server) : Server :=
  { srv with candidate.requests := [] }

/-- A request thread of `IdentityCandidate::Impl::requestVotes` receives its reply. -/
def receiveVote (info : ServerInfo) (target : ServerId) (msg : RequestVoteMessage)
    (reply : Reply) (srv : Server) : Server :=
  let srv := { srv with candidate.requests := srv.candidate.requests.erase (target, msg) }
  if reply.1 ≠ msg.term ∨ reply.2 = false then
    srv
  else
    let srv := { srv with candidate.votesReceived := srv.candidate.votesReceived + 1 }
    if info.exceedsHalf srv.candidate.votesReceived then srv.notify .leader msg.term else srv

end Server

end Quintet
