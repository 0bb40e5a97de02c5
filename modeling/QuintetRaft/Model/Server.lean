import QuintetRaft.Model.Defs

/-!
# One server

The mutable data behind `Raft::Impl`: the shared `ServerState`, the current identity, the identity
transformer with the event queue it fills, and the private data of the candidate and of the
leader.  Mutexes are not data here.  An RPC handler, a timer callback, a transformation, the
building of one message, the processing of one reply and one iteration of the counting loop are
single steps, and `addLog` is two.

This granularity is an assumption of the model, not one that the mutexes ensure: step 5 of
`defaultRPCAppendEntries` locks nothing, `RpcService::pause` does not wait for a handler that is
running, `IdentityCandidate::init` writes `currentTerm` and `votedFor` without a lock, and `addLog`
and `createAppendEntriesMessage` read under several locks one after the other.  What is proved of
servers, clusters and systems that take these steps is proved of all orders of whole steps.  What
depends on how the threads of one server overlap is proved over `QuintetRaft.Model.Sections`, where
each access to the shared state is a step.
-/

namespace Quintet

/-- Progress of the thread running `tryAppendEntries` for one follower. -/
inductive AppendingThread
  /-- No thread, or a thread that has returned. -/
  | finished
  /-- At the head of the loop, with `oldMatchIdx` and `retryTimes`. -/
  | trying (oldMatchIdx : Nat) (retryTimes : Nat)
  /-- Inside `sendAppendEntries`, with the message built last. -/
  | sending (oldMatchIdx : Nat) (retryTimes : Nat) (msg : AppendEntriesMessage)
  /-- In the counting loop, about to handle index `idx`. -/
  | counting (idx : Nat)
  deriving DecidableEq, Repr

namespace AppendingThread

/-- The thread holds `logStatesM` in shared mode. -/
def isCounting : AppendingThread → Bool
  | counting _ => true
  | _ => false

end AppendingThread

/-- The leader's record of one follower. -/
structure FollowerNode where
  /-- Index of the next entry to send. -/
  nextIdx : Nat := 1
  /-- Index of the last entry known to be replicated. -/
  matchIdx : Nat := 0
  /-- The appending thread. -/
  appendingThread : AppendingThread := .finished
  deriving DecidableEq, Repr

/-- `IdentityCandidate::Impl`. -/
structure CandidateImpl where
  /-- Votes counted in the current candidacy. -/
  votesReceived : Nat := 0
  /-- Vote requests whose thread has not returned, with the server asked. -/
  requests : List (ServerId × RequestVoteMessage) := []

/-- `IdentityLeader::Impl`. -/
structure LeaderImpl where
  /-- The records of the other servers. -/
  followerNodes : ServerId → Option FollowerNode := fun _ => none
  /-- The `replicateNum` counters. -/
  logStates : List Nat := []
  /-- The message of an `addLog` that has extended `entries` but not yet `logStates`. -/
  addingLog : Option AddLogMessage := none
  /-- History: `currentTerm` as the last `init` found it; no step reads it. -/
  initTerm : Nat := invalidTerm
  /-- History: `entries.size()` as the last `init` found it; no step reads it. -/
  initSize : Nat := 0

/-- Everything one server remembers. -/
structure Server where
  /-- Data shared by the identities. -/
  state : ServerState := {}
  /-- `currentIdentity`. -/
  identity : ServerIdentityNo := .follower
  /-- `IdentityTransformer::Impl::termTriggered`. -/
  termTriggered : Nat := invalidTerm
  /-- Transformations waiting in the event queue.  The term given to `notify` is kept beside the
  target; no step reads it. -/
  events : List (ServerIdentityNo × Nat) := []
  /-- Private data of the candidate. -/
  candidate : CandidateImpl := {}
  /-- Private data of the leader. -/
  leader : LeaderImpl := {}

/-- What a server sends out, answers, or hands to the application. -/
inductive Output
  /-- A vote request to `target`. -/
  | requestVote (target : ServerId) (msg : RequestVoteMessage)
  /-- An append request to `target`. -/
  | appendEntries (target : ServerId) (msg : AppendEntriesMessage)
  /-- The answer to a vote request. -/
  | voteReply (msg : RequestVoteMessage) (reply : Reply)
  /-- The answer to an append request. -/
  | appendReply (msg : AppendEntriesMessage) (reply : Reply)
  /-- The answer to a client. -/
  | addLogReply (msg : AddLogMessage) (reply : AddLogReply)
  /-- The server starts a candidacy, voting for itself. -/
  | candidacy (term : Nat)
  /-- Entries handed to `service.apply`. -/
  | apply (entries : List BasicLogEntry)
  deriving DecidableEq, Repr

namespace Server

/-- The gate of `IdentityTransformer::notify`. -/
def accepts (srv : Server) (currentTerm : Nat) : Prop :=
  srv.termTriggered = invalidTerm ∨ srv.termTriggered < currentTerm

instance (srv : Server) (currentTerm : Nat) : Decidable (srv.accepts currentTerm) :=
  inferInstanceAs (Decidable (_ ∨ _))

/-- `IdentityTransformer::notify`, whose signal is bound to `Raft::Impl::triggerTransformation`. -/
def notify (target : ServerIdentityNo) (currentTerm : Nat) (srv : Server) : Server :=
  if srv.accepts currentTerm then
    { srv with
      termTriggered := currentTerm
      events := srv.events ++ [(target, currentTerm)] }
  else
    srv

section Notify

variable (target : ServerIdentityNo) (currentTerm : Nat) (srv : Server)

@[simp] theorem notify_state : (srv.notify target currentTerm).state = srv.state := by
  unfold notify; split <;> rfl

@[simp] theorem notify_identity : (srv.notify target currentTerm).identity = srv.identity := by
  unfold notify; split <;> rfl

@[simp] theorem notify_candidate : (srv.notify target currentTerm).candidate = srv.candidate := by
  unfold notify; split <;> rfl

@[simp] theorem notify_leader : (srv.notify target currentTerm).leader = srv.leader := by
  unfold notify; split <;> rfl

theorem notify_events :
    (srv.notify target currentTerm).events =
      if srv.accepts currentTerm then srv.events ++ [(target, currentTerm)] else srv.events := by
  unfold notify; split <;> rfl

/-- The signal does not depend on the shared state. -/
theorem notify_withState (state : ServerState) :
    { srv with state }.notify target currentTerm =
      { srv.notify target currentTerm with state } := by
  by_cases opens : srv.accepts currentTerm
  · have opens' : { srv with state }.accepts currentTerm := opens
    rw [notify, notify, if_pos opens, if_pos opens']
  · have closed : ¬ { srv with state }.accepts currentTerm := opens
    rw [notify, notify, if_neg opens, if_neg closed]

theorem notify_events_subset {event : ServerIdentityNo × Nat}
    (member : event ∈ (srv.notify target currentTerm).events) :
    event ∈ srv.events ∨ event = (target, currentTerm) := by
  rw [notify_events] at member
  split at member
  · simpa using member
  · exact .inl member

end Notify

/-- The deferred body of `applyReadyEntries`: hand the entries up to `commitIdx` to the
application. -/
def applyReadyEntries (srv : Server) : Server × List Output :=
  if srv.state.commitIdx ≤ srv.state.lastApplied then
    (srv, [])
  else
    ({ srv with state.lastApplied := srv.state.commitIdx },
      [.apply (((srv.state.entries.take (srv.state.commitIdx + 1)).drop
        (srv.state.lastApplied + 1)).map LogEntry.toBasic)])

section ApplyReadyEntries

variable (srv : Server)

@[simp] theorem applyReadyEntries_state :
    srv.applyReadyEntries.1.state =
      { srv.state with lastApplied := max srv.state.lastApplied srv.state.commitIdx } := by
  unfold applyReadyEntries
  split <;> rename_i applied
  · rw [Nat.max_eq_left applied]
  · rw [Nat.max_eq_right (Nat.le_of_not_le applied)]

@[simp] theorem applyReadyEntries_identity :
    srv.applyReadyEntries.1.identity = srv.identity := by
  unfold applyReadyEntries; split <;> rfl

@[simp] theorem applyReadyEntries_termTriggered :
    srv.applyReadyEntries.1.termTriggered = srv.termTriggered := by
  unfold applyReadyEntries; split <;> rfl

@[simp] theorem applyReadyEntries_events : srv.applyReadyEntries.1.events = srv.events := by
  unfold applyReadyEntries; split <;> rfl

@[simp] theorem applyReadyEntries_candidate :
    srv.applyReadyEntries.1.candidate = srv.candidate := by
  unfold applyReadyEntries; split <;> rfl

@[simp] theorem applyReadyEntries_leader : srv.applyReadyEntries.1.leader = srv.leader := by
  unfold applyReadyEntries; split <;> rfl

/-- The deferred application emits nothing but `apply`. -/
theorem applyReadyEntries_output {output : Output}
    (member : output ∈ srv.applyReadyEntries.2) : ∃ entries, output = .apply entries := by
  unfold applyReadyEntries at member
  split at member
  · simp at member
  · exact ⟨_, List.mem_singleton.mp member⟩

end ApplyReadyEntries

end Server

end Quintet
