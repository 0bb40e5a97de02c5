import QuintetRaft.Model.VoteHandling

/-!
# Vote requests and the election timer

The handler of a vote request and the election timer wait for each other for ever in one kind of
state only: the handler joins the timer's thread while it has `currentTermM`, and the callback of
the timer is about to share it.  Such a state is reached exactly when the term of the request is
greater than the current one.
-/

namespace Quintet

namespace ServerState

variable {start : ServerState} {msg : RequestVoteMessage}

/-- The state that `checkRpcTerm` leaves for a vote request. -/
def lowered (start : ServerState) (msg : RequestVoteMessage) : ServerState :=
  { start with currentTerm := min start.currentTerm msg.term }

/-- The state in which a vote request has been answered. -/
def voted (start : ServerState) (msg : RequestVoteMessage) : ServerState :=
  { start with
    currentTerm := msg.term
    votedFor := if start.grants msg then msg.candidateId else start.votedFor }

/-- A request of no greater term is granted by the last test or not at all. -/
theorem grants_iff_of_le (fresh : msg.term ≤ start.currentTerm) :
    start.grants msg ↔
      ((start.lowered msg).votedFor = nullServerId ∨
        (start.lowered msg).votedFor = msg.candidateId) ∧
      upToDate (start.lowered msg) msg.lastLogIdx msg.lastLogTerm :=
  or_iff_right (Nat.not_lt.mpr fresh)

theorem voted_of_lt (greater : start.currentTerm < msg.term) :
    start.voted msg =
      { start.lowered msg with votedFor := msg.candidateId, currentTerm := msg.term } := by
  have granted : start.grants msg := .inl greater
  simp [voted, lowered, granted]

theorem voted_of_grants (fresh : msg.term ≤ start.currentTerm) (granted : start.grants msg) :
    start.voted msg = { start.lowered msg with votedFor := msg.candidateId } := by
  simp [voted, lowered, granted, Nat.min_eq_right fresh]

theorem voted_of_not_grants (fresh : msg.term ≤ start.currentTerm)
    (refused : ¬ start.grants msg) : start.voted msg = start.lowered msg := by
  simp [voted, lowered, refused, Nat.min_eq_right fresh]

/-- The answer carries the term of the request. -/
theorem answer {state : ServerState} {granted : Bool} (reached : state = start.voted msg)
    (decided : granted = decide (start.grants msg)) :
    (state.currentTerm, granted) = (msg.term, decide (start.grants msg)) := by
  rw [reached, decided]
  rfl

end ServerState

namespace RequestVotePhase

/-- The state of the server in each phase of the handler. -/
def Reaches (start : ServerState) (msg : RequestVoteMessage) :
    RequestVotePhase → ServerState → Prop
  | .checking, state | .lowering, state => state = start
  | .reading, state | .comparing, state | .locking, state | .lockingVote, state
  | .adopting, state => state = start.lowered msg
  | .stale, _ | .staleLogging, _ => False
  | .restartingBoth _, state | .adopted, state | .adoptedUnlocking, state =>
      start.currentTerm < msg.term ∧ state = start.voted msg
  | .passing, state | .passingUnlocking, state | .voting, state | .testing, state =>
      msg.term ≤ start.currentTerm ∧ state = start.lowered msg
  | .restarting _, state | .granted, state | .answering, state =>
      start.grants msg ∧ state = start.voted msg
  | .refusing, state | .refused, state | .refusedAnswering, state =>
      ¬ start.grants msg ∧ state = start.voted msg
  | .answered reply, state | .done reply, state =>
      state = start.voted msg ∧ reply = (msg.term, decide (start.grants msg))

end RequestVotePhase

namespace VoteHandling

variable {start : ServerState} {handling before after : VoteHandling} {action : VoteAction}

/-! ## The answer -/

/-- The handler is on its way from a state. -/
def Handles (start : ServerState) (handling : VoteHandling) : Prop :=
  handling.handler.Reaches start handling.msg handling.server.state

/-- `restart` touches the timer only. -/
theorem restart_eq_some {again : RestartPhase → RequestVotePhase} {next : RequestVotePhase}
    {phase : RestartPhase} (taken : before.restart again next phase = some after) :
    after.server = before.server ∧ after.msg = before.msg ∧
      (after.handler = next ∨ ∃ phase, after.handler = again phase) := by
  cases phase with
  | interrupt =>
      cases taken
      exact ⟨rfl, rfl, .inr ⟨_, rfl⟩⟩
  | join =>
      obtain ⟨-, rfl⟩ := Execution.guarded_eq_some.mp taken
      exact ⟨rfl, rfl, .inr ⟨_, rfl⟩⟩
  | start =>
      cases taken
      exact ⟨rfl, rfl, .inl rfl⟩

/-- The first test never finds the request stale, since `checkRpcTerm` has lowered the term. -/
theorem Handles.compare (handles : before.Handles start) (compares : before.handler = .comparing)
    (taken : before.stepHandler = some after) : after.msg = before.msg ∧ after.Handles start := by
  unfold Handles at handles ⊢
  rw [compares] at handles
  have lowered : before.server.state = start.lowered before.msg := handles
  have fresh : ¬ before.msg.term < before.server.state.currentTerm := by
    rw [lowered]
    exact Nat.not_lt.mpr (Nat.min_le_right _ _)
  simp only [VoteHandling.stepHandler, compares, if_neg fresh] at taken
  cases taken
  exact ⟨rfl, lowered⟩

/-- The second test asks whether the term of the request was greater on its arrival. -/
theorem Handles.adopt (handles : before.Handles start) (adopts : before.handler = .adopting)
    (taken : before.stepHandler = some after) : after.msg = before.msg ∧ after.Handles start := by
  unfold Handles at handles ⊢
  rw [adopts] at handles
  have lowered : before.server.state = start.lowered before.msg := handles
  have test : before.server.state.currentTerm < before.msg.term ↔
      start.currentTerm < before.msg.term := by
    simp [lowered, ServerState.lowered]
  by_cases greater : start.currentTerm < before.msg.term
  · simp only [VoteHandling.stepHandler, adopts, if_pos (test.mpr greater)] at taken
    cases taken
    refine ⟨rfl, greater, ?_⟩
    rw [ServerState.voted_of_lt greater, ← lowered]
  · simp only [VoteHandling.stepHandler, adopts, if_neg (mt test.mp greater)] at taken
    cases taken
    exact ⟨rfl, Nat.le_of_not_lt greater, lowered⟩

/-- The third test decides about the vote. -/
theorem Handles.test (handles : before.Handles start) (tests : before.handler = .testing)
    (taken : before.stepHandler = some after) : after.msg = before.msg ∧ after.Handles start := by
  unfold Handles at handles ⊢
  rw [tests] at handles
  obtain ⟨fresh, lowered⟩ := handles
  have test := ServerState.grants_iff_of_le fresh
  rw [← lowered] at test
  by_cases granted : start.grants before.msg
  · simp only [VoteHandling.stepHandler, tests, if_pos (test.mp granted)] at taken
    cases taken
    refine ⟨rfl, granted, ?_⟩
    rw [ServerState.voted_of_grants fresh granted, ← lowered]
  · simp only [VoteHandling.stepHandler, tests, if_neg (mt test.mpr granted)] at taken
    cases taken
    refine ⟨rfl, granted, ?_⟩
    rw [ServerState.voted_of_not_grants fresh granted, ← lowered]

theorem Handles.stepHandler (handles : before.Handles start)
    (taken : before.stepHandler = some after) :
    after.msg = before.msg ∧ after.Handles start := by
  cases phase : before.handler with
  | comparing => exact handles.compare phase taken
  | adopting => exact handles.adopt phase taken
  | testing => exact handles.test phase taken
  | checking | locking =>
      simp only [Handles, VoteHandling.stepHandler, phase] at handles taken
      obtain ⟨-, ⟨⟩⟩ := Option.ite_none_left_eq_some.mp taken
      exact ⟨rfl, handles⟩
  | lowering =>
      simp only [Handles, VoteHandling.stepHandler, phase] at handles taken
      cases taken
      obtain rfl : before.server.state = start := handles
      exact ⟨rfl, Server.checkRpcTerm_state _ _ _⟩
  | restartingBoth | restarting =>
      simp only [Handles, VoteHandling.stepHandler, phase] at handles taken
      obtain ⟨server, msg, next | ⟨phase, again⟩⟩ := restart_eq_some taken
      · rw [Handles, next, server, msg]
        exact ⟨rfl, handles⟩
      · rw [Handles, again, server, msg]
        exact ⟨rfl, handles⟩
  | adoptedUnlocking =>
      simp only [Handles, VoteHandling.stepHandler, phase] at handles taken
      cases taken
      obtain ⟨greater, voted⟩ := handles
      have granted : start.grants before.msg := .inl greater
      exact ⟨rfl, voted, ServerState.answer voted (by simp [granted])⟩
  | answering =>
      simp only [Handles, VoteHandling.stepHandler, phase] at handles taken
      cases taken
      obtain ⟨granted, voted⟩ := handles
      exact ⟨rfl, voted, ServerState.answer voted (by simp [granted])⟩
  | refusedAnswering =>
      simp only [Handles, VoteHandling.stepHandler, phase] at handles taken
      cases taken
      obtain ⟨refused, voted⟩ := handles
      exact ⟨rfl, voted, ServerState.answer voted (by simp [refused])⟩
  | stale | staleLogging =>
      simp only [Handles, phase] at handles
      exact handles.elim
  | done => simp [VoteHandling.stepHandler, phase] at taken
  | reading | lockingVote | adopted | passing | passingUnlocking | voting | granted | answered
  | refusing | refused =>
      simp only [Handles, VoteHandling.stepHandler, phase] at handles taken
      cases taken
      exact ⟨rfl, handles⟩

/-- The timer leaves the state of the server and the handler alone. -/
theorem stepTimer_frame (taken : before.stepTimer = some after) :
    after.msg = before.msg ∧ after.handler = before.handler ∧
      after.server.state = before.server.state := by
  unfold stepTimer at taken
  cases phase : before.timer with
  | fired =>
      simp only [phase] at taken
      obtain ⟨-, ⟨⟩⟩ := Option.ite_none_left_eq_some.mp taken
      exact ⟨rfl, rfl, rfl⟩
  | adding term =>
      simp only [phase] at taken
      cases taken
      exact ⟨rfl, rfl, Server.notify_state _ _ _⟩
  | sleeping | done => simp [phase] at taken
  | reading | timedOut | notifying | triggering | notified =>
      simp only [phase] at taken
      cases taken
      exact ⟨rfl, rfl, rfl⟩

theorem Handles.step (handles : before.Handles start) (taken : before.step action = some after) :
    after.msg = before.msg ∧ after.Handles start := by
  cases action with
  | handler => exact handles.stepHandler taken
  | fire =>
      obtain ⟨-, rfl⟩ := Execution.guarded_eq_some.mp taken
      exact ⟨rfl, handles⟩
  | interrupted =>
      obtain ⟨-, rfl⟩ := Execution.guarded_eq_some.mp taken
      exact ⟨rfl, handles⟩
  | timer =>
      obtain ⟨msg, handler, state⟩ := stepTimer_frame taken
      refine ⟨msg, ?_⟩
      unfold Handles
      rw [msg, handler, state]
      exact handles

/-- Every run from the arrival of the request keeps the handler on its way. -/
theorem handles_of_run {server : Server} {msg : RequestVoteMessage} {actions : List VoteAction}
    {final : VoteHandling}
    (execution : Execution.run step actions { server, msg } = some final) :
    final.msg = msg ∧ final.Handles server.state := by
  have start : ({ server, msg } : VoteHandling).Handles server.state := rfl
  refine Execution.invariant_of_run
    (fun (before : VoteHandling) action after
      (kept : before.msg = msg ∧ before.Handles server.state) taken => ?_) ⟨rfl, start⟩ execution
  obtain ⟨same, handles⟩ := kept.2.step taken
  exact ⟨same.trans kept.1, handles⟩

/-- Whatever the timer does, the handler answers as `requestVoteBody` does. -/
theorem run_requestVoteBody {server : Server} {msg : RequestVoteMessage}
    {actions : List VoteAction} {final : VoteHandling} {reply : Reply}
    (execution : Execution.run step actions { server, msg } = some final)
    (returned : final.handler = .done reply) :
    final.server.state = (server.requestVoteBody msg .follower).1.state ∧
      reply = (server.requestVoteBody msg .follower).2 := by
  obtain ⟨rfl, handles⟩ := handles_of_run execution
  unfold Handles at handles
  rw [returned] at handles
  rw [Server.requestVoteBody_eq]
  exact handles

/-! ## Deadlocks -/

/-- The handler joins the timer's thread, which waits for `currentTermM`. -/
def Deadlocked (handling : VoteHandling) : Prop :=
  handling.handler = .restartingBoth .join ∧ handling.timer = .fired

theorem Deadlocked.not_finished (deadlocked : handling.Deadlocked) : ¬ handling.Finished := by
  rintro ⟨-, ended⟩
  rw [deadlocked.2] at ended
  cases ended

/-- The handler goes on unless it has returned, the timer reads the term, or it joins the timer's
thread. -/
theorem stepHandler_isSome (unfinished : ¬ handling.handler.Finished)
    (idle : handling.timer ≠ .reading)
    (joins : handling.timer = .done ∨
      handling.handler ≠ .restartingBoth .join ∧ handling.handler ≠ .restarting .join) :
    handling.stepHandler.isSome := by
  unfold stepHandler
  cases phase : handling.handler with
  | checking | locking => simp [idle]
  | adopting | testing =>
      dsimp only
      split <;> rfl
  | restartingBoth phase' | restarting phase' =>
      cases phase' with
      | interrupt | start => rfl
      | join => simpa [restart, phase] using joins
  | done reply =>
      rw [phase] at unfinished
      exact absurd trivial unfinished
  | _ => rfl

/-- The timer can take a step unless it has ended, or waits for the handler. -/
theorem exists_step_of_timer (running : handling.timer ≠ .done)
    (free : handling.timer = .fired → ¬ handling.handler.HasTerm) :
    ∃ action, (handling.step action).isSome := by
  cases phase : handling.timer with
  | sleeping => exact ⟨.fire, by simp [step, phase]⟩
  | fired => exact ⟨.timer, by simp [step, stepTimer, phase, free phase]⟩
  | done => exact absurd phase running
  | _ => exact ⟨.timer, by simp [step, stepTimer, phase]⟩

/-- Some thread can take a step exactly when the two have neither ended nor wait for each other. -/
theorem exists_step_iff :
    (∃ action, (handling.step action).isSome) ↔ ¬ handling.Finished ∧ ¬ handling.Deadlocked := by
  constructor
  · rintro ⟨action, enabled⟩
    refine ⟨fun ⟨returned, ended⟩ => ?_, fun ⟨joins, fired⟩ => ?_⟩
    · cases phase : handling.handler with
      | done reply => cases action <;> simp [step, stepHandler, stepTimer, phase, ended] at enabled
      | _ => simp [phase, RequestVotePhase.Finished] at returned
    · cases action <;>
        simp [step, stepHandler, stepTimer, restart, RequestVotePhase.HasTerm, joins, fired]
          at enabled
  · rintro ⟨unfinished, free⟩
    by_cases ended : handling.timer = .done
    · refine ⟨.handler, stepHandler_isSome (fun returned => unfinished ⟨returned, ended⟩) ?_
        (.inl ended)⟩
      simp [ended]
    · by_cases waits : handling.timer = .fired ∧ handling.handler.HasTerm
      · -- the callback waits for the term, so the handler has to go on
        obtain ⟨fired, has⟩ := waits
        refine ⟨.handler, stepHandler_isSome ?_ (by simp [fired]) (.inr ⟨fun joins => ?_, ?_⟩)⟩
        · intro returned
          cases phase : handling.handler <;>
            simp [phase, RequestVotePhase.Finished, RequestVotePhase.HasTerm] at returned has
        · exact free ⟨joins, fired⟩
        · intro joins
          simp [joins, RequestVotePhase.HasTerm] at has
      · exact exists_step_of_timer ended fun fired has => waits ⟨fired, has⟩

/-- The handler takes the term and interrupts the timer, whose callback has started by then. -/
def collision : List VoteAction :=
  [.handler, .handler, .handler, .handler, .handler, .handler, .handler, .handler, .fire]

/-- With a greater term in the request the two threads can end up waiting for each other. -/
theorem exists_deadlocked_of_lt {server : Server} {msg : RequestVoteMessage}
    (greater : server.state.currentTerm < msg.term) :
    ∃ final, Execution.run step collision { server, msg } = some final ∧ final.Deadlocked := by
  have kept := Server.checkRpcTerm_of_le server .follower greater.le
  have fresh : ¬ msg.term < server.state.currentTerm := greater.not_gt
  simp [Execution.run, collision, step, stepHandler, restart, Deadlocked, kept, fresh, greater]

/-- Handling a vote request cannot deadlock with the election timer exactly when the term of the
request is not greater than the current one. -/
theorem deadlockFree_iff (server : Server) (msg : RequestVoteMessage) :
    Execution.DeadlockFree step Finished ({ server, msg } : VoteHandling) ↔
      msg.term ≤ server.state.currentTerm := by
  constructor
  · intro free
    by_contra greater
    obtain ⟨final, execution, deadlocked⟩ := exists_deadlocked_of_lt (Nat.lt_of_not_le greater)
    rcases free collision final execution with finished | enabled
    · exact deadlocked.not_finished finished
    · exact (exists_step_iff.mp enabled).2 deadlocked
  · intro fresh actions final execution
    obtain ⟨same, handles⟩ := handles_of_run execution
    have free : ¬ final.Deadlocked := by
      rintro ⟨joins, -⟩
      unfold Handles at handles
      rw [joins, same] at handles
      exact absurd fresh (Nat.not_le.mpr handles.1)
    by_cases finished : final.Finished
    · exact .inl finished
    · exact .inr (exists_step_iff.mpr ⟨finished, free⟩)

/-- The first vote request that a follower gets, and its timer. -/
def firstRequest : VoteHandling where
  server := {}
  msg := { term := 1, candidateId := { addr := "localhost", port := 2 } }

/-- In the end no thread has finished, and none can take a step. -/
theorem deadlockFree_counterexample :
    (∃ final ∈ Execution.run step collision firstRequest,
      ¬ final.Finished ∧ ∀ action, final.step action = none) ∧
    ¬ Execution.DeadlockFree step Finished firstRequest := by
  have greater : firstRequest.server.state.currentTerm < firstRequest.msg.term := by decide
  obtain ⟨final, execution, deadlocked⟩ := exists_deadlocked_of_lt greater
  have disabled : ¬ ∃ action, (final.step action).isSome :=
    fun enabled => (exists_step_iff.mp enabled).2 deadlocked
  have unfinished : ¬ final.Finished := deadlocked.not_finished
  refine ⟨⟨final, execution, unfinished, fun action => ?_⟩, fun free => ?_⟩
  · exact Option.not_isSome_iff_eq_none.mp fun enabled => disabled ⟨action, enabled⟩
  · exact (free collision final execution).elim unfinished disabled

end VoteHandling

end Quintet
