import QuintetRaft.Library.Execution
import QuintetRaft.Model.IdentityBaseImpl

/-!
# A vote request and the election timer

`defaultRPCRequestVote` as a follower runs it, and the thread of its election timer, cut at every
lock they take or release and at the join in `HeartBeatController::stop`.  Who holds a lock can be
told from how far the two threads are: the handler holds `currentTermM` exclusively in the phases
singled out below, and the timer shares it while it reads; `voteForM` is the handler's alone, the
mutex of the transformer and that of the event queue are the timer's alone.
-/

namespace Quintet

/-- How far `HeartBeatController::restart` is. -/
inductive RestartPhase
  /-- It is about to interrupt the thread. -/
  | interrupt
  /-- It is about to join it. -/
  | join
  /-- It is about to start a new one. -/
  | start
  deriving DecidableEq, Repr

/-- How far `defaultRPCRequestVote` is. -/
inductive RequestVotePhase
  /-- It is about to take `currentTermM` in `checkRpcTerm`. -/
  | checking
  /-- It has it there. -/
  | lowering
  /-- It is about to share `currentTermM` for the first test. -/
  | reading
  /-- It shares it there. -/
  | comparing
  /-- The term is smaller; it is about to share `currentTermM` for the log. -/
  | stale
  /-- It shares it there. -/
  | staleLogging
  /-- It is about to take `currentTermM` for the second test. -/
  | locking
  /-- It has `currentTermM` and is about to take `voteForM`. -/
  | lockingVote
  /-- It has both and is about to make the second test. -/
  | adopting
  /-- The term is greater; it restarts the timer, with both locks. -/
  | restartingBoth (phase : RestartPhase)
  /-- It is about to release `voteForM` and answer that the vote is granted. -/
  | adopted
  /-- It is about to release `currentTermM` after that. -/
  | adoptedUnlocking
  /-- The term is not greater; it is about to release `voteForM`. -/
  | passing
  /-- It is about to release `currentTermM` after that. -/
  | passingUnlocking
  /-- It is about to take `voteForM` for the third test. -/
  | voting
  /-- It has it and is about to make the third test. -/
  | testing
  /-- The vote is granted; it restarts the timer, with `voteForM`. -/
  | restarting (phase : RestartPhase)
  /-- It is about to share `currentTermM` for the answer, with `voteForM`. -/
  | granted
  /-- It shares it there. -/
  | answering
  /-- It is about to release `voteForM`. -/
  | answered (reply : Reply)
  /-- The vote is refused; it is about to release `voteForM`. -/
  | refusing
  /-- It is about to share `currentTermM` for the answer. -/
  | refused
  /-- It shares it there. -/
  | refusedAnswering
  /-- It has returned. -/
  | done (reply : Reply)
  deriving DecidableEq, Repr

/-- How far the thread of the timer is. -/
inductive TimerPhase
  /-- It sleeps. -/
  | sleeping
  /-- It has woken up, with interruption disabled, and is about to share `currentTermM`. -/
  | fired
  /-- It shares it. -/
  | reading
  /-- It is about to take the mutex of the transformer. -/
  | timedOut (term : Nat)
  /-- It has it and is about to test the gate of `notify`. -/
  | notifying (term : Nat)
  /-- The gate is open; it is about to take the mutex of the event queue. -/
  | triggering (term : Nat)
  /-- It has both and is about to add the event and release the mutex of the queue. -/
  | adding (term : Nat)
  /-- It is about to release the mutex of the transformer. -/
  | notified
  /-- It has ended. -/
  | done
  deriving DecidableEq, Repr

namespace RequestVotePhase

/-- The handler has `currentTermM` exclusively. -/
def HasTerm : RequestVotePhase → Prop
  | .lowering | .lockingVote | .adopting | .restartingBoth _ | .adopted | .adoptedUnlocking
  | .passing | .passingUnlocking => True
  | _ => False

/-- The handler has returned. -/
def Finished : RequestVotePhase → Prop
  | .done _ => True
  | _ => False

instance : (phase : RequestVotePhase) → Decidable phase.HasTerm
  | .lowering | .lockingVote | .adopting | .restartingBoth _ | .adopted | .adoptedUnlocking
  | .passing | .passingUnlocking => .isTrue trivial
  | .checking | .reading | .comparing | .stale | .staleLogging | .locking | .voting | .testing
  | .restarting _ | .granted | .answering | .answered _ | .refusing | .refused | .refusedAnswering
  | .done _ => .isFalse id

end RequestVotePhase

/-- A follower that handles a vote request, and its timer. -/
structure VoteHandling where
  /-- The follower. -/
  server : Server
  /-- The request. -/
  msg : RequestVoteMessage
  /-- The thread of the RPC. -/
  handler : RequestVotePhase := .checking
  /-- The thread of the timer. -/
  timer : TimerPhase := .sleeping
  /-- The timer's thread has been interrupted. -/
  interrupted : Bool := false

/-- Who takes a step. -/
inductive VoteAction
  /-- The handler. -/
  | handler
  /-- The timer sleeps long enough. -/
  | fire
  /-- The timer notices in its sleep that it has been interrupted. -/
  | interrupted
  /-- The callback of the timer goes on. -/
  | timer
  deriving DecidableEq, Repr

namespace VoteHandling

/-- `HeartBeatController::restart`, and the phase after it. -/
def restart (again : RestartPhase → RequestVotePhase) (next : RequestVotePhase)
    (handling : VoteHandling) : RestartPhase → Option VoteHandling
  | .interrupt => some { handling with interrupted := true, handler := again .join }
  | .join => if handling.timer = .done then some { handling with handler := again .start } else none
  | .start =>
      some { handling with timer := .sleeping, interrupted := false, handler := next }

/-- The next step of the handler. -/
def stepHandler (handling : VoteHandling) : Option VoteHandling :=
  let state := handling.server.state
  match handling.handler with
  | .checking =>
      if handling.timer = .reading then none else some { handling with handler := .lowering }
  | .lowering =>
      some { handling with
        server := (handling.server.checkRpcTerm handling.msg.term .follower).1
        handler := .reading }
  | .reading => some { handling with handler := .comparing }
  | .comparing =>
      some { handling with
        handler := if handling.msg.term < state.currentTerm then .stale else .locking }
  | .stale => some { handling with handler := .staleLogging }
  | .staleLogging => some { handling with handler := .refused }
  | .locking =>
      if handling.timer = .reading then none else some { handling with handler := .lockingVote }
  | .lockingVote => some { handling with handler := .adopting }
  | .adopting =>
      if state.currentTerm < handling.msg.term then
        some { handling with
          server.state := { state with
            votedFor := handling.msg.candidateId, currentTerm := handling.msg.term }
          handler := .restartingBoth .interrupt }
      else some { handling with handler := .passing }
  | .restartingBoth phase => handling.restart .restartingBoth .adopted phase
  | .adopted => some { handling with handler := .adoptedUnlocking }
  | .adoptedUnlocking => some { handling with handler := .done (state.currentTerm, true) }
  | .passing => some { handling with handler := .passingUnlocking }
  | .passingUnlocking => some { handling with handler := .voting }
  | .voting => some { handling with handler := .testing }
  | .testing =>
      if (state.votedFor = nullServerId ∨ state.votedFor = handling.msg.candidateId) ∧
          upToDate state handling.msg.lastLogIdx handling.msg.lastLogTerm then
        some { handling with
          server.state := { state with votedFor := handling.msg.candidateId }
          handler := .restarting .interrupt }
      else some { handling with handler := .refusing }
  | .restarting phase => handling.restart .restarting .granted phase
  | .granted => some { handling with handler := .answering }
  | .answering => some { handling with handler := .answered (state.currentTerm, true) }
  | .answered reply => some { handling with handler := .done reply }
  | .refusing => some { handling with handler := .refused }
  | .refused => some { handling with handler := .refusedAnswering }
  | .refusedAnswering => some { handling with handler := .done (state.currentTerm, false) }
  | .done _ => none

/-- The next step of the callback bound by `IdentityFollower::Impl::init`. -/
def stepTimer (handling : VoteHandling) : Option VoteHandling :=
  match handling.timer with
  | .sleeping => none
  | .fired =>
      if handling.handler.HasTerm then none else some { handling with timer := .reading }
  | .reading => some { handling with timer := .timedOut handling.server.state.currentTerm }
  | .timedOut term => some { handling with timer := .notifying term }
  | .notifying term =>
      some { handling with
        timer := if handling.server.accepts term then .triggering term else .notified }
  | .triggering term => some { handling with timer := .adding term }
  | .adding term =>
      some { handling with server := handling.server.notify .candidate term, timer := .notified }
  | .notified => some { handling with timer := .done }
  | .done => none

/-- One step of one thread. -/
def step (handling : VoteHandling) : VoteAction → Option VoteHandling
  | .handler => handling.stepHandler
  | .fire =>
      if handling.timer = .sleeping then some { handling with timer := .fired } else none
  | .interrupted =>
      if handling.timer = .sleeping ∧ handling.interrupted = true then
        some { handling with timer := .done }
      else none
  | .timer => handling.stepTimer

/-- Both threads have ended. -/
def Finished (handling : VoteHandling) : Prop :=
  handling.handler.Finished ∧ handling.timer = .done

end VoteHandling

end Quintet
