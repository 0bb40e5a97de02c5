import Mathlib.Logic.Function.Basic
import QuintetRaft.Model.Identities

/-!
# The threads of a candidate

`IdentityCandidate.cpp` step by step: the thread that runs `init` and `leave` again and again, and
one thread for every vote request.  Every access to `votesReceived` is a step of its own.  RPC
handlers change the state of the server at any time but during `init`.  The election timer does not
take part in the tally.
-/

namespace Quintet

/-- One call of `callRpcRequestVote`. -/
structure VoteRequest where
  /-- The thread that makes it. -/
  thread : Nat
  /-- The number of the candidacy it belongs to. -/
  candidacy : Nat := 0
  /-- The server that is asked. -/
  target : ServerId := {}
  /-- The message. -/
  msg : RequestVoteMessage := {}
  deriving DecidableEq, Repr

/-- How far a request thread is. -/
inductive RequestPhase
  /-- In `callRpcRequestVote`. -/
  | calling
  /-- Before the test of `termReceived` and `res`. -/
  | testing (termReceived : Nat) (res : Bool)
  /-- Before `votesReceived += res`. -/
  | adding (res : Bool)
  /-- Before the comparison of `votesReceived`. -/
  | comparing
  /-- Before `notify`. -/
  | notifying
  /-- The thread has returned, or has not been created. -/
  | ended
  deriving DecidableEq, Repr

/-- How far the thread that runs `init` and `leave` is. -/
inductive CandidatePhase
  /-- Neither is running, and the server is no candidate. -/
  | away
  /-- In `init`, before the assignment to `votedFor`. -/
  | voting
  /-- Before the assignment to `votesReceived`. -/
  | resetting
  /-- Before the comparison of `votesReceived`. -/
  | comparing
  /-- Before `notify`. -/
  | notifying
  /-- In `requestVotes`, with the rest of `srvList`. -/
  | asking (rest : List ServerId)
  /-- `init` has returned. -/
  | standing
  /-- In `leave`, with the rest of `requests` in each of its loops. -/
  | cancelling (rest : List Nat)
  | interrupting (rest : List Nat)
  | joining (rest : List Nat)
  deriving DecidableEq, Repr

/-- `init` is running. -/
def CandidatePhase.Initialising : CandidatePhase → Prop
  | .voting | .resetting | .comparing | .notifying | .asking _ => True
  | _ => False

instance : (phase : CandidatePhase) → Decidable phase.Initialising
  | .voting | .resetting | .comparing | .notifying | .asking _ => .isTrue trivial
  | .away | .standing | .cancelling _ | .interrupting _ | .joining _ => .isFalse id

/-- What is remembered of a run. -/
inductive CandidateEvent
  /-- A candidacy begins, in a new term. -/
  | stand (candidacy : Nat) (term : Nat)
  /-- A vote is requested. -/
  | ask (request : VoteRequest)
  /-- A request is answered. -/
  | answer (request : VoteRequest) (reply : Reply)
  /-- An answer is added to `votesReceived` while a candidacy lasts. -/
  | count (candidacy : Nat) (request : VoteRequest)
  /-- A candidacy issues `notify(Leader, term)`. -/
  | notify (candidacy : Nat) (term : Nat)
  deriving DecidableEq, Repr

/-- A candidate and its threads. -/
structure CandidateThreads where
  /-- `state`, shared with the RPC handlers. -/
  state : ServerState := {}
  votesReceived : Nat := 0
  /-- `requests`, by the threads. -/
  requests : List Nat := []
  /-- The thread that runs `init` and `leave`. -/
  phase : CandidatePhase := .away
  /-- How many request threads have been created. -/
  created : Nat := 0
  /-- The request that a thread has been created for. -/
  request : Nat → VoteRequest := fun thread => { thread }
  threads : Nat → RequestPhase := fun _ => .ended
  /-- The threads that `interrupt` has been called for. -/
  interrupted : Nat → Bool := fun _ => false
  /-- History: how often `init` has been called. -/
  candidacy : Nat := 0
  /-- History: what has happened, the latest first. -/
  history : List CandidateEvent := []

/-- What can happen next. -/
inductive CandidateAction
  /-- `init` is called. -/
  | init
  /-- `leave` is called. -/
  | leave
  /-- `init` or `leave` goes on. -/
  | proceed
  /-- An answer reaches a request thread. -/
  | answer (thread : Nat) (reply : Reply)
  /-- The call of a request thread fails, because it is cancelled or for another reason. -/
  | fail (thread : Nat)
  /-- A request thread is interrupted in its call. -/
  | interrupt (thread : Nat)
  /-- A request thread goes on. -/
  | request (thread : Nat)
  /-- An RPC handler leaves the server in another state. -/
  | handle (state : ServerState)
  deriving DecidableEq, Repr

namespace CandidateThreads

/-- A request thread goes on to another phase. -/
def setThread (thread : Nat) (phase : RequestPhase) (candidate : CandidateThreads) :
    CandidateThreads :=
  { candidate with threads := Function.update candidate.threads thread phase }

/-- One turn of the loop in `requestVotes`. -/
def ask (info : ServerInfo) (target : ServerId) (candidate : CandidateThreads) :
    CandidateThreads :=
  let request : VoteRequest :=
    { thread := candidate.created
      candidacy := candidate.candidacy
      target
      msg := Server.createRequestVoteMessage info { state := candidate.state } }
  { candidate.setThread candidate.created .calling with
    requests := candidate.requests ++ [candidate.created]
    created := candidate.created + 1
    request := Function.update candidate.request candidate.created request
    history := .ask request :: candidate.history }

/-- The next step of `init` or `leave`. -/
def stepProceed (info : ServerInfo) (candidate : CandidateThreads) : Option CandidateThreads :=
  match candidate.phase with
  | .voting => some { candidate with state.votedFor := info.localId, phase := .resetting }
  | .resetting => some { candidate with votesReceived := 1, phase := .comparing }
  | .comparing =>
      some
        { candidate with
          phase := if info.exceedsHalf candidate.votesReceived then .notifying
            else .asking info.srvList }
  | .notifying =>
      some
        { candidate with
          phase := .asking info.srvList
          history := .notify candidate.candidacy candidate.state.currentTerm ::
            candidate.history }
  | .asking [] => some { candidate with phase := .standing }
  | .asking (srv :: rest) =>
      if srv = info.localId then some { candidate with phase := .asking rest }
      else some { candidate.ask info srv with phase := .asking rest }
  | .cancelling [] => some { candidate with phase := .interrupting candidate.requests }
  | .cancelling (_ :: rest) => some { candidate with phase := .cancelling rest }
  | .interrupting [] => some { candidate with phase := .joining candidate.requests }
  | .interrupting (thread :: rest) =>
      some
        { candidate with
          interrupted := Function.update candidate.interrupted thread true
          phase := .interrupting rest }
  | .joining [] => some { candidate with requests := [], phase := .away }
  | .joining (thread :: rest) =>
      if candidate.threads thread = .ended then some { candidate with phase := .joining rest }
      else none
  | .away | .standing => none

/-- The next step of a request thread, after the call. -/
def stepRequest (info : ServerInfo) (thread : Nat) (candidate : CandidateThreads) :
    Option CandidateThreads :=
  let request := candidate.request thread
  match candidate.threads thread with
  | .testing termReceived res =>
      some
        (candidate.setThread thread
          (if termReceived ≠ request.msg.term ∨ res = false then .ended else .adding res))
  | .adding res =>
      some
        { candidate.setThread thread .comparing with
          votesReceived := candidate.votesReceived + res.toNat
          history := .count candidate.candidacy request :: candidate.history }
  | .comparing =>
      some
        (candidate.setThread thread
          (if info.exceedsHalf candidate.votesReceived then .notifying else .ended))
  | .notifying =>
      some
        { candidate.setThread thread .ended with
          history := .notify request.candidacy request.msg.term :: candidate.history }
  | .calling | .ended => none

/-- One step; nothing when it cannot be taken. -/
def step (info : ServerInfo) (candidate : CandidateThreads) :
    CandidateAction → Option CandidateThreads
  | .init =>
      if candidate.phase = .away then
        let term := incrementTerm candidate.state.currentTerm
        some
          { candidate with
            state.currentTerm := term
            phase := .voting
            candidacy := candidate.candidacy + 1
            history := .stand (candidate.candidacy + 1) term :: candidate.history }
      else none
  | .leave =>
      if candidate.phase = .standing then
        some { candidate with phase := .cancelling candidate.requests }
      else none
  | .proceed => candidate.stepProceed info
  | .answer thread reply =>
      if candidate.threads thread = .calling then
        some
          { candidate.setThread thread (.testing reply.1 reply.2) with
            history := .answer (candidate.request thread) reply :: candidate.history }
      else none
  | .fail thread =>
      if candidate.threads thread = .calling then some (candidate.setThread thread .ended)
      else none
  | .interrupt thread =>
      if candidate.threads thread = .calling ∧ candidate.interrupted thread = true then
        some (candidate.setThread thread .ended)
      else none
  | .request thread => candidate.stepRequest info thread
  | .handle state =>
      if candidate.phase.Initialising then none else some { candidate with state }

end CandidateThreads

end Quintet
