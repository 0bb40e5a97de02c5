import QuintetRaft.Model.Stopping

/-!
# The way to `Down`

What the threads of a server leave alone while it is being stopped: how far the transformation that
`stop` has triggered is, what is queued behind it, and which threads can still run.
-/

namespace Quintet

/-- The thread of the event queue works for one of the three identities. -/
def QueuePhase.Working : QueuePhase → Prop
  | .testing | .waiting => True
  | .joiningTimer target | .joiningThreads target | .assigning target | .initializing target =>
      target.Regular
  | .done => False

theorem ServerIdentityNo.Regular.ne_down {target : ServerIdentityNo} (regular : target.Regular) :
    target ≠ .down := by
  rcases regular with rfl | rfl | rfl <;> decide

namespace Stopping

open Server

variable {info : ServerInfo} {stopping before after : Stopping} {action : StopAction}
  {behind : List (ServerIdentityNo × Nat)}

/-! ## Threads beside the event queue -/

/-- What a thread other than those of the event queue and of `stop` may do to the server and to the
timer, when a call of `notify` queues its request at once. -/
structure Background (info : ServerInfo) (before : Stopping) (action : StopAction)
    (server : Server) (timer : Option TimerThread) : Prop where
  /-- The identity stays. -/
  identity : server.identity = before.server.identity
  /-- Threads belong to their identities. -/
  tidy : before.server.Tidy → server.Tidy
  /-- Threads do not start out of nothing. -/
  cleared : before.server.Cleared → server.Cleared
  /-- What is queued asks for one of three identities. -/
  asks : before.server.Asks server
  /-- When the RPCs have ended, only what passes the gate is queued. -/
  grows : before.stop.Triggered →
    server.events = before.server.events ++ before.server.passed (before.notice info action)
  /-- When the RPCs have ended, or mean nothing, nobody starts the timer. -/
  timer : before.stop.Triggered ∨ before.server.identity = .down → before.timer = none →
    timer = none
  /-- The request of a call of `notify` is for one of three identities. -/
  regular : ∀ request ∈ before.notice info action, request.1.Regular
  /-- A thread that calls `notify` is there. -/
  running : before.notice info action ≠ none → caller action = .timer ∧ before.timer ≠ none ∨
    caller action = .thread ∧ ¬ before.server.Cleared

/-- When the RPCs have ended, only the threads of an identity run. -/
theorem Runs.aside {event : Event} (runs : stopping.Runs event)
    (triggered : stopping.stop.Triggered) : event.Aside := by
  cases event with
  | rpcRequestVote | rpcAppendEntries =>
      rcases runs with outside | stoppingRpc
      · exact (outside ▸ triggered : StopPhase.outside.Triggered)
      · exact (stoppingRpc ▸ triggered : StopPhase.stoppingRpc.Triggered)
  | timeout | transform => exact runs
  | _ => trivial

/-- When the RPCs have ended, or mean nothing, no handler restarts the timer. -/
theorem Runs.not_restartsTimer {event : Event} (runs : stopping.Runs event)
    (ended : stopping.stop.Triggered ∨ stopping.server.identity = .down) :
    ¬ stopping.server.restartsTimer event := by
  intro restarts
  rcases ended with triggered | down
  · have aside := runs.aside triggered
    cases event with
    | rpcRequestVote | rpcAppendEntries => exact aside
    | _ => exact restarts
  · cases event with
    | rpcRequestVote | rpcAppendEntries =>
        have follows := down.symm.trans restarts.1
        cases follows
    | _ => exact restarts

/-- A handler, or a thread of an identity. -/
theorem background_server {event : Event} {result : Server × List Output}
    (runs : before.Runs event) (stepped : before.server.step info event = some result) :
    Background info before (.server event) result.1
      (if before.server.restartsTimer event then some (.sleeping before.bound)
        else before.timer) := by
  have kept : event ≠ .timeout ∧ event ≠ .transform := by
    refine ⟨?_, ?_⟩ <;> rintro rfl <;> exact runs
  exact {
    identity := step_identity stepped kept.2
    tidy := fun tidy => tidy.step stepped
    cleared := fun cleared => cleared.step stepped kept.2
    asks := step_asks stepped kept
    grows := fun triggered => step_events stepped (runs.aside triggered)
    timer := by
      intro ended none
      rw [if_neg (runs.not_restartsTimer ended), none]
    regular := fun _ => notice_regular
    running := fun calls => .inr ⟨rfl, fun cleared => calls (cleared.notice stepped)⟩ }

/-- The callback of the election timeout runs. -/
theorem timer_of_timedOut {term : Nat} (fires : before.timedOut = some term) :
    before.timer = some (.timedOut term) := by
  unfold timedOut at fires
  split at fires
  · rename_i running
    rw [running, Option.some.inj fires]
  · cases fires

theorem background_readTerm (fires : before.timer = some (.sleeping .election)) :
    Background info before .readTerm before.server
      (some (.timedOut before.server.state.currentTerm)) where
  identity := rfl
  tidy tidy := tidy
  cleared cleared := cleared
  asks := .refl _
  grows _ := (List.append_nil _).symm
  timer _ none := nomatch fires.symm.trans none
  regular _ asks := nomatch asks
  running calls := absurd rfl calls

theorem background_timeout {term : Nat} (fires : before.timedOut = some term) :
    Background info before .timeout (before.server.notify .candidate term) none where
  identity := notify_identity ..
  tidy tidy := {
    requests := by simpa using tidy.requests
    nodes := by simpa using tidy.nodes }
  cleared cleared := {
    requests := by simpa using cleared.requests
    nodes := by simpa using cleared.nodes }
  asks := by
    intro request member
    rcases notify_events_subset _ _ _ member with earlier | rfl
    · exact .inl earlier
    · exact .inr (.inr (.inl rfl))
  grows _ := by
    rw [notice, fires]
    exact notify_events_eq ..
  timer _ _ := rfl
  regular request asks := by
    obtain ⟨term, -, rfl⟩ := Option.map_eq_some_iff.mp asks
    exact .inr (.inl rfl)
  running _ := .inl ⟨rfl, by rw [timer_of_timedOut fires]; exact Option.some_ne_none _⟩

theorem background_asyncRun (outside : before.stop = .outside) :
    Background info before .asyncRun (before.trigger .follower).server before.timer where
  identity := rfl
  tidy tidy := ⟨tidy.requests, tidy.nodes⟩
  cleared cleared := ⟨cleared.requests, cleared.nodes⟩
  asks := by
    intro request member
    rcases List.mem_append.mp member with earlier | added
    · exact .inl earlier
    · rw [List.mem_singleton.mp added]
      exact .inr (.inl rfl)
  grows triggered := (outside ▸ triggered : StopPhase.outside.Triggered).elim
  timer _ none := none
  regular _ asks := nomatch asks
  running calls := absurd rfl calls

theorem background_timerInterrupted :
    Background info before .timerInterrupted before.server none where
  identity := rfl
  tidy tidy := tidy
  cleared cleared := cleared
  asks := .refl _
  grows _ := (List.append_nil _).symm
  timer _ _ := rfl
  regular _ asks := nomatch asks
  running calls := absurd rfl calls

theorem background_failRequest (target : ServerId) (msg : RequestVoteMessage) :
    Background info before (.failRequest target msg)
      { before.server with
        candidate :=
          { before.server.candidate with
            requests := before.server.candidate.requests.erase (target, msg) } }
      before.timer where
  identity := rfl
  tidy tidy := {
    requests := fun other => by simp [tidy.requests other]
    nodes := tidy.nodes }
  cleared cleared := {
    requests := by simp [cleared.requests]
    nodes := cleared.nodes }
  asks := .refl _
  grows _ := (List.append_nil _).symm
  timer _ none := none
  regular _ asks := nomatch asks
  running calls := absurd rfl calls

/-- The event queue and `stop` do not go on when another thread does. -/
theorem background (taken : before.stepAtOnce info action = some after)
    (aside : action ≠ .queue ∧ action ≠ .stop) :
    ∃ server timer, Background info before action server timer ∧
      after = { before with server, timer } := by
  cases action with
  | asyncRun =>
      obtain ⟨outside, rfl⟩ := Execution.guarded_eq_some.mp taken
      exact ⟨_, _, background_asyncRun outside, rfl⟩
  | server event =>
      obtain ⟨runs, moved⟩ := Option.ite_none_right_eq_some.mp taken
      obtain ⟨result, stepped, rfl⟩ := Option.map_eq_some_iff.mp moved
      exact ⟨_, _, background_server runs stepped, rfl⟩
  | readTerm =>
      obtain ⟨fires, rfl⟩ := Execution.guarded_eq_some.mp taken
      exact ⟨_, _, background_readTerm fires, rfl⟩
  | timeout =>
      obtain ⟨term, fires, rfl⟩ := Option.map_eq_some_iff.mp taken
      exact ⟨_, _, background_timeout fires, rfl⟩
  | timerInterrupted =>
      refine ⟨_, _, background_timerInterrupted, ?_⟩
      simp only [stepAtOnce] at taken
      split at taken
      · exact (Execution.guarded_eq_some.mp taken).2.symm
      · cases taken
  | failRequest target msg =>
      obtain ⟨-, rfl⟩ := Execution.guarded_eq_some.mp taken
      exact ⟨_, _, background_failRequest target msg, rfl⟩
  | push => cases taken
  | queue => exact absurd rfl aside.1
  | stop => exact absurd rfl aside.2

/-- What such a thread may do in one step, in which it queues `pushed`. -/
structure Moves (before : Stopping) (pushed : List (ServerIdentityNo × Nat)) (server : Server)
    (timer : Option TimerThread) (notifying : Option (Caller × ServerIdentityNo × Nat)) : Prop where
  /-- The identity stays. -/
  identity : server.identity = before.server.identity
  /-- Threads belong to their identities. -/
  tidy : before.server.Tidy → server.Tidy
  /-- Threads do not start out of nothing. -/
  cleared : before.server.Cleared → server.Cleared
  /-- What is queued asks for one of three identities. -/
  asks : before.server.Asks server
  /-- When the RPCs have ended, nothing else is queued. -/
  grows : before.stop.Triggered → server.events = before.server.events ++ pushed
  /-- What is pushed asks for one of three identities. -/
  regular : ∀ request ∈ pushed, request.1.Regular
  /-- When the RPCs have ended, or mean nothing, nobody starts the timer. -/
  timer : before.stop.Triggered ∨ before.server.identity = .down → before.timer = none →
    timer = none
  /-- Only a thread in `notify` pushes its request. -/
  silent : before.notifying = none → pushed = []
  /-- A thread in `notify` has been there, or was there to call it. -/
  calls : ∀ called, notifying = some called → before.notifying = some called ∨
    called.2.1.Regular ∧ (called.1 = .timer ∧ before.timer ≠ none ∨
      called.1 = .thread ∧ ¬ before.server.Cleared)

section Moves

variable {server : Server} {timer : Option TimerThread}

theorem Background.moves (background : Background info before action server timer) :
    ∃ server' timer' notifying, Moves before [] server' timer' notifying ∧
      before.cut info action { before with server, timer } =
        { before with server := server', timer := timer', notifying } := by
  cases passes : (before.notice info action).filter fun request =>
    before.server.accepts request.2 with
  | none =>
      refine ⟨server, timer, before.notifying, ?_, by simp only [cut, passes]⟩
      exact {
        identity := background.identity
        tidy := background.tidy
        cleared := background.cleared
        asks := background.asks
        grows := fun triggered => by rw [background.grows triggered, Server.passed, passes]; rfl
        regular := fun _ member => absurd member List.not_mem_nil
        timer := background.timer
        silent := fun _ => rfl
        calls := fun _ same => .inl same }
  | some request =>
      refine ⟨{ server with events := before.server.events }, timer,
        some (caller action, request), ?_, by simp only [cut, passes]⟩
      have asks : before.notice info action = some request :=
        (Option.mem_filter_iff.mp (Option.mem_def.mpr passes)).1
      exact {
        identity := background.identity
        tidy := fun tidy => ⟨(background.tidy tidy).requests, (background.tidy tidy).nodes⟩
        cleared := fun cleared =>
          ⟨(background.cleared cleared).requests, (background.cleared cleared).nodes⟩
        asks := fun _ member => .inl member
        grows := fun _ => (List.append_nil _).symm
        regular := fun _ member => absurd member List.not_mem_nil
        timer := background.timer
        silent := fun _ => rfl
        calls := by
          rintro called same
          obtain rfl := Option.some.inj same
          refine .inr ⟨background.regular request asks, background.running ?_⟩
          rw [asks]
          exact Option.some_ne_none _ }

/-- The thread in `notify` queues its request. -/
theorem moves_push {called : Caller × ServerIdentityNo × Nat}
    (calls : before.notifying = some called) (regular : called.2.1.Regular) :
    Moves before [called.2]
      { before.server with events := before.server.events ++ [called.2] } before.timer none where
  identity := rfl
  tidy tidy := ⟨tidy.requests, tidy.nodes⟩
  cleared cleared := ⟨cleared.requests, cleared.nodes⟩
  asks := by
    intro request member
    rcases List.mem_append.mp member with earlier | added
    · exact .inl earlier
    · rw [List.mem_singleton.mp added]
      exact .inr regular
  grows _ := rfl
  regular := by
    intro request member
    rw [List.mem_singleton.mp member]
    exact regular
  timer _ none := none
  silent nobody := nomatch calls.symm.trans nobody
  calls _ same := nomatch same

end Moves

/-! ## The transformation to `Down` -/

/-- How far the transformation to `Down` is, and what is queued behind it. -/
inductive Stage (stopping : Stopping) (behind : List (ServerIdentityNo × Nat)) : Prop
  /-- It has not been triggered. -/
  | ahead (untriggered : ¬ stopping.stop.Triggered) (nothing : behind = [])
      (regular : ∀ request ∈ stopping.server.events, request.1.Regular)
      (working : stopping.executing.Working) (calm : stopping.interrupted = false)
      (fresh : stopping.downExecuted = false)
  /-- It waits in the queue. -/
  | queued (earlier : List (ServerIdentityNo × Nat)) (term : Nat)
      (drains : stopping.stop = .draining)
      (queue : stopping.server.events = earlier ++ (.down, term) :: behind)
      (first : ∀ request ∈ earlier, request.1.Regular)
      (second : ∀ request ∈ behind, request.1.Regular)
      (working : stopping.executing.Working) (calm : stopping.interrupted = false)
      (fresh : stopping.downExecuted = false)
  /-- It is being executed. -/
  | leaving (triggered : stopping.stop.Triggered) (waits : stopping.stop ≠ .returned)
      (queue : stopping.server.events = behind)
      (regular : ∀ request ∈ behind, request.1.Regular)
      (leaves : stopping.executing = .joiningTimer .down ∨
        (stopping.executing = .joiningThreads .down ∨ stopping.executing = .assigning .down) ∧
          stopping.timer = none)
      (fresh : stopping.downExecuted = false)
  /-- It has been executed. -/
  | down (triggered : stopping.stop.Triggered)
      (returned : stopping.stop = .returned → stopping.executing = .done)
      (queue : stopping.server.events = behind)
      (regular : ∀ request ∈ behind, request.1.Regular)
      (rests : stopping.executing = .testing ∨
        behind = [] ∧ (stopping.executing = .waiting ∨ stopping.executing = .done))
      (isDown : stopping.server.identity = .down) (executed : stopping.downExecuted = true)

/-- The threads are where the transformations let them be. -/
structure Consistent (stopping : Stopping) (behind : List (ServerIdentityNo × Nat)) : Prop where
  /-- Threads belong to their identities. -/
  tidy : stopping.server.Tidy
  /-- There are three identities beside `Down`. -/
  served : stopping.server.identity = .down ∨ stopping.server.Serving
  /-- A server that is down has no timer. -/
  timer : stopping.server.identity = .down → stopping.timer = none
  /-- An identity is left only when there is one. -/
  present : ∀ target, stopping.executing = .joiningTimer target ∨
    stopping.executing = .joiningThreads target → stopping.server.identity ≠ .down
  /-- Between `leave` and `init` there are no threads. -/
  cleared : ∀ target, stopping.executing = .assigning target ∨
    stopping.executing = .initializing target → stopping.server.Cleared
  /-- The transformation to `Down`. -/
  stage : stopping.Stage behind

theorem consistent_configured (state : ServerState) : (configured state).Consistent [] where
  tidy := ⟨fun _ => rfl, fun _ _ => rfl⟩
  served := .inl rfl
  timer _ := rfl
  present _ joins := nomatch joins
  cleared _ assigns := nomatch assigns
  stage := .ahead id rfl (fun _ member => nomatch member) trivial rfl rfl

/-- Where the thread in `notify` can be. -/
def Attended (stopping : Stopping) : Caller → Prop
  | .timer => stopping.server.identity ≠ .down ∧ stopping.executing ≠ .joiningThreads .down ∧
      stopping.executing ≠ .assigning .down
  | .thread => stopping.server.identity ≠ .down ∧
      ∀ target, stopping.executing ≠ .assigning target ∧ stopping.executing ≠ .initializing target
  | .queue => stopping.server.identity ≠ .down ∧ stopping.executing = .testing

/-- A thread in `notify` asks for one of three identities, and there is somebody to wait for it. -/
def Manned (stopping : Stopping) : Prop :=
  ∀ called, stopping.notifying = some called →
    called.2.1.Regular ∧ stopping.Attended called.1

/-- Nobody is in `notify` when the server is down. -/
theorem Manned.nobody (manned : stopping.Manned) (isDown : stopping.server.identity = .down) :
    stopping.notifying = none := by
  cases calls : stopping.notifying with
  | none => rfl
  | some called =>
      obtain ⟨-, attended⟩ := manned called calls
      cases who : called.1 with
      | timer =>
          rw [who] at attended
          exact absurd isDown attended.1
      | thread =>
          rw [who] at attended
          exact absurd isDown attended.1
      | queue =>
          rw [who] at attended
          exact absurd isDown attended.1

theorem manned_configured (state : ServerState) : (configured state).Manned :=
  fun _ calls => nomatch calls

/-- What a step queues behind the transformation to `Down`. -/
def added (stopping : Stopping) : StopAction → List (ServerIdentityNo × Nat)
  | .push => if stopping.stop.Triggered then (stopping.notifying.map Prod.snd).toList else []
  | _ => []

theorem added_of_ne (other : action ≠ .push) : before.added action = [] := by
  cases action with
  | push => exact absurd rfl other
  | _ => rfl

section Moves

variable {server : Server} {timer : Option TimerThread}
  {notifying : Option (Caller × ServerIdentityNo × Nat)} {pushed : List (ServerIdentityNo × Nat)}

theorem Moves.stage (moves : Moves before pushed server timer notifying)
    (consistent : before.Consistent behind) (manned : before.Manned) :
    Stage { before with server, timer, notifying }
      (behind ++ if before.stop.Triggered then pushed else []) := by
  cases consistent.stage with
  | ahead untriggered nothing regular working calm fresh =>
      refine .ahead untriggered ?_ (fun request member => ?_) working calm fresh
      · rw [nothing, if_neg untriggered]
        rfl
      · exact (moves.asks request member).elim (regular request) id
  | queued earlier term drains queue first second working calm fresh =>
      have triggered : before.stop.Triggered := by
        rw [drains]
        trivial
      rw [if_pos triggered]
      refine .queued earlier term drains ?_ first
        (List.forall_mem_append.mpr ⟨second, moves.regular⟩) working calm fresh
      rw [moves.grows triggered, queue, List.append_assoc, List.cons_append]
  | leaving triggered waits queue regular leaves fresh =>
      rw [if_pos triggered]
      refine .leaving triggered waits ?_ (List.forall_mem_append.mpr ⟨regular, moves.regular⟩)
        (leaves.imp_right fun left => ⟨left.1, moves.timer (.inl triggered) left.2⟩) fresh
      rw [moves.grows triggered, queue]
  | down triggered returned queue regular rests isDown executed =>
      -- no thread is left that could queue anything
      have nothing : pushed = [] := moves.silent (manned.nobody isDown)
      rw [nothing, ite_self, List.append_nil]
      refine .down triggered returned ?_ regular rests (moves.identity.trans isDown) executed
      rw [moves.grows triggered, nothing, List.append_nil, queue]

theorem Moves.consistent (moves : Moves before pushed server timer notifying)
    (consistent : before.Consistent behind) (manned : before.Manned) :
    Consistent { before with server, timer, notifying }
      (behind ++ if before.stop.Triggered then pushed else []) where
  tidy := moves.tidy consistent.tidy
  served := by
    unfold Serving
    rw [moves.identity]
    exact consistent.served
  timer isDown := by
    rw [moves.identity] at isDown
    exact moves.timer (.inr isDown) (consistent.timer isDown)
  present target joins := by
    rw [moves.identity]
    exact consistent.present target joins
  cleared target assigns := moves.cleared (consistent.cleared target assigns)
  stage := moves.stage consistent manned

/-- The timer runs until it has been joined. -/
theorem Consistent.attended_timer (consistent : before.Consistent behind)
    (running : before.timer ≠ none) : before.Attended .timer := by
  refine ⟨fun isDown => running (consistent.timer isDown), ?_⟩
  cases consistent.stage with
  | ahead untriggered nothing regular working calm fresh =>
      refine ⟨fun joins => ?_, fun assigns => ?_⟩
      · rw [joins] at working
        exact absurd rfl working.ne_down
      · rw [assigns] at working
        exact absurd rfl working.ne_down
  | queued earlier term drains queue first second working calm fresh =>
      refine ⟨fun joins => ?_, fun assigns => ?_⟩
      · rw [joins] at working
        exact absurd rfl working.ne_down
      · rw [assigns] at working
        exact absurd rfl working.ne_down
  | leaving triggered waits queue regular leaves fresh =>
      have joins : before.executing = .joiningTimer .down :=
        leaves.resolve_right fun left => running left.2
      simp [joins]
  | down triggered returned queue regular rests isDown executed =>
      exact absurd (consistent.timer isDown) running

/-- Other threads run until they have been joined. -/
theorem Consistent.attended_thread (consistent : before.Consistent behind)
    (running : ¬ before.server.Cleared) : before.Attended .thread := by
  refine ⟨fun isDown => running (consistent.tidy.cleared (by rw [isDown]; decide)),
    fun target => ?_⟩
  exact ⟨fun assigns => running (consistent.cleared target (.inl assigns)),
    fun initializes => running (consistent.cleared target (.inr initializes))⟩

theorem Moves.manned (moves : Moves before pushed server timer notifying)
    (consistent : before.Consistent behind) (manned : before.Manned) :
    Manned { before with server, timer, notifying } := by
  have same : ∀ who, before.Attended who →
      Attended { before with server, timer, notifying } who := by
    intro who attended
    cases who <;> exact ⟨moves.identity ▸ attended.1, attended.2⟩
  intro called calls
  rcases moves.calls called calls with before' | ⟨regular, ⟨who, running⟩ | ⟨who, running⟩⟩
  · obtain ⟨regular, attended⟩ := manned called before'
    exact ⟨regular, same _ attended⟩
  · exact ⟨regular, same _ (who ▸ consistent.attended_timer running)⟩
  · exact ⟨regular, same _ (who ▸ consistent.attended_thread running)⟩

end Moves

/-! ## The caller of `stop` -/

/-- `stop` touches the event queue and its thread only. -/
theorem StopSteps.frame (taken : before.StopSteps after) :
    after.timer = before.timer ∧ after.executing = before.executing ∧
      after.downExecuted = before.downExecuted ∧ after.notifying = before.notifying ∧
      ∃ events, after.server = { before.server with events } := by
  cases taken <;> exact ⟨rfl, rfl, rfl, rfl, _, rfl⟩

/-- `stop` returns after the thread of the event queue. -/
theorem StopSteps.ended (taken : before.StopSteps after) (returned : after.stop = .returned) :
    before.executing = .done := by
  cases taken with
  | join joins ended => exact ended
  | _ => cases returned

theorem Stage.stepStop (stage : before.Stage behind) (taken : before.StopSteps after) :
    after.Stage behind := by
  cases stage with
  | ahead untriggered nothing regular working calm fresh =>
      cases taken with
      | call outside => exact .ahead id nothing regular working calm fresh
      | stopRpc waits => exact .ahead id nothing regular working calm fresh
      | trigger triggers =>
          subst nothing
          exact .queued _ _ rfl rfl regular (fun _ member => nomatch member) working calm fresh
      | drain phase | interrupt phase | join phase =>
          rw [phase] at untriggered
          exact absurd trivial untriggered
  | queued earlier term drains queue first second working calm fresh =>
      cases taken with
      | drain phase empty => simp [queue] at empty
      | call phase | stopRpc phase | trigger phase | interrupt phase | join phase =>
          rw [drains] at phase
          cases phase
  | leaving triggered waits queue regular leaves fresh =>
      cases taken with
      | call phase | stopRpc phase | trigger phase =>
          rw [phase] at triggered
          exact triggered.elim
      | drain phase empty => exact .leaving trivial nofun queue regular leaves fresh
      | interrupt phase => exact .leaving trivial nofun queue regular leaves fresh
      | join phase ended => simp [ended] at leaves
  | down triggered returned queue regular rests isDown executed =>
      cases taken with
      | call phase | stopRpc phase | trigger phase =>
          rw [phase] at triggered
          exact triggered.elim
      | drain phase empty => exact .down trivial nofun queue regular rests isDown executed
      | interrupt phase => exact .down trivial nofun queue regular rests isDown executed
      | join phase ended =>
          exact .down trivial (fun _ => ended) queue regular rests isDown executed

theorem Consistent.stepStop (consistent : before.Consistent behind)
    (taken : before.StopSteps after) : after.Consistent behind := by
  obtain ⟨timer, executing, -, -, events, server⟩ := taken.frame
  exact {
    tidy := by
      rw [server]
      exact ⟨consistent.tidy.requests, consistent.tidy.nodes⟩
    served := by
      rw [server]
      exact consistent.served
    timer := by
      rw [server, timer]
      exact consistent.timer
    present := by
      rw [server, executing]
      exact consistent.present
    cleared := by
      intro target assigns
      rw [executing] at assigns
      have cleared := consistent.cleared target assigns
      rw [server]
      exact ⟨cleared.requests, cleared.nodes⟩
    stage := consistent.stage.stepStop taken }

theorem Manned.stepStop (manned : before.Manned) (taken : before.StopSteps after) :
    after.Manned := by
  obtain ⟨-, executing, -, notifying, events, server⟩ := taken.frame
  intro called calls
  obtain ⟨regular, attended⟩ := manned called (notifying ▸ calls)
  refine ⟨regular, ?_⟩
  cases who : called.1 <;> rw [who] at attended <;> unfold Attended at attended ⊢ <;>
    rw [server, executing] <;> exact attended

/-! ## The thread of the event queue -/

/-- The event queue is about to leave `Down` after the transformation to it. -/
structure Overtaken (stopping : Stopping) : Prop where
  /-- The transformation has been executed. -/
  executed : stopping.downExecuted = true
  /-- `stop` still waits. -/
  waits : stopping.stop ≠ .returned
  /-- Another identity is about to be assigned. -/
  assigns : ∃ target, target.Regular ∧ stopping.executing = .assigning target

/-- The queue is empty, and its thread waits or returns. -/
theorem Consistent.rest (consistent : before.Consistent behind)
    (tests : before.executing = .testing) (empty : before.server.events = []) :
    Consistent { before with executing := if before.interrupted then .done else .waiting }
      behind where
  tidy := consistent.tidy
  served := consistent.served
  timer := consistent.timer
  present target joins := by
    dsimp only at joins
    split_ifs at joins <;> simp at joins
  cleared target assigns := by
    dsimp only at assigns
    split_ifs at assigns <;> simp at assigns
  stage := by
    cases consistent.stage with
    | ahead untriggered nothing regular working calm fresh =>
        refine .ahead untriggered nothing regular ?_ calm fresh
        rw [calm]
        trivial
    | queued earlier term drains queue first second working calm fresh => simp [empty] at queue
    | leaving triggered waits queue regular leaves fresh => simp [tests] at leaves
    | down triggered returned queue regular rests isDown executed =>
        refine .down triggered (fun ended => ?_) queue regular (.inr ⟨?_, ?_⟩) isDown executed
        · have finished := returned ended
          rw [tests] at finished
          cases finished
        · rw [← queue, empty]
        · dsimp only
          split_ifs <;> simp

theorem take_working {target : ServerIdentityNo} (regular : target.Regular)
    (rest : List (ServerIdentityNo × Nat)) : (stopping.take target rest).executing.Working := by
  by_cases isDown : stopping.server.identity = .down
  · rw [take_executing_of_down isDown]
    exact regular
  · rw [take_executing_of_ne isDown]
    exact regular

/-- Taking an event keeps what does not depend on the queue. -/
theorem Consistent.take_of_stage (consistent : before.Consistent behind)
    {target : ServerIdentityNo} {rest : List (ServerIdentityNo × Nat)}
    (stage : (before.take target rest).Stage behind) :
    (before.take target rest).Consistent behind where
  tidy := ⟨consistent.tidy.requests, consistent.tidy.nodes⟩
  served := consistent.served
  timer := consistent.timer
  present target joins isDown := by
    have held : before.server.identity = .down := isDown
    rw [take_executing_of_down held] at joins
    simp at joins
  cleared target assigns := by
    by_cases isDown : before.server.identity = .down
    · have cleared := consistent.tidy.cleared (by rw [isDown]; decide)
      exact ⟨cleared.requests, cleared.nodes⟩
    · rw [take_executing_of_ne isDown] at assigns
      simp at assigns
  stage := stage

theorem Consistent.take (consistent : before.Consistent behind)
    (tests : before.executing = .testing) {target : ServerIdentityNo} {term : Nat}
    {rest : List (ServerIdentityNo × Nat)}
    (queue : before.server.events = (target, term) :: rest) :
    (before.take target rest).Consistent behind ∨
      behind ≠ [] ∧ (before.take target rest).Overtaken := by
  cases consistent.stage with
  | ahead untriggered nothing regular working calm fresh =>
      rw [queue] at regular
      obtain ⟨first, others⟩ := List.forall_mem_cons.mp regular
      exact .inl (consistent.take_of_stage
        (.ahead untriggered nothing others (take_working first rest) calm fresh))
  | queued earlier term' drains queue' first second working calm fresh =>
      refine .inl (consistent.take_of_stage ?_)
      cases earlier with
      | nil =>
          obtain ⟨⟨rfl, -⟩, rfl⟩ : (target = .down ∧ term = term') ∧ rest = behind := by
            simpa [queue] using queue'
          have triggered : before.stop.Triggered := by
            rw [drains]
            trivial
          refine .leaving triggered (fun ended => nomatch drains.symm.trans ended) rfl second ?_
            fresh
          by_cases isDown : before.server.identity = .down
          · exact .inr ⟨.inr (take_executing_of_down isDown), consistent.timer isDown⟩
          · exact .inl (take_executing_of_ne isDown)
      | cons head earlier =>
          obtain ⟨rfl, rfl⟩ := List.cons.inj (queue.symm.trans queue')
          obtain ⟨regular, others⟩ := List.forall_mem_cons.mp first
          exact .queued earlier term' drains rfl others second (take_working regular _) calm fresh
  | leaving triggered waits queue' regular leaves fresh => simp [tests] at leaves
  | down triggered returned queue' regular rests isDown executed =>
      rw [← queue', queue] at regular
      obtain ⟨first, -⟩ := List.forall_mem_cons.mp regular
      refine .inr ⟨?_, executed, fun ended => ?_, target, first,
        take_executing_of_down isDown⟩
      · rw [← queue', queue]
        exact List.cons_ne_nil _ _
      · have finished := returned ended
        rw [tests] at finished
        cases finished

/-- The thread wakes up, or notices that it has been interrupted. -/
theorem Consistent.wake (consistent : before.Consistent behind)
    (waits : before.executing = .waiting) :
    Consistent { before with executing := if before.interrupted then .done else .testing }
      behind where
  tidy := consistent.tidy
  served := consistent.served
  timer := consistent.timer
  present target joins := by
    dsimp only at joins
    split_ifs at joins <;> simp at joins
  cleared target assigns := by
    dsimp only at assigns
    split_ifs at assigns <;> simp at assigns
  stage := by
    cases consistent.stage with
    | ahead untriggered nothing regular working calm fresh =>
        refine .ahead untriggered nothing regular ?_ calm fresh
        rw [calm]
        trivial
    | queued earlier term drains queue first second working calm fresh =>
        refine .queued earlier term drains queue first second ?_ calm fresh
        rw [calm]
        trivial
    | leaving triggered unreturned queue regular leaves fresh => simp [waits] at leaves
    | down triggered returned queue regular rests isDown executed =>
        have nothing : behind = [] := by
          simpa [waits] using rests
        refine .down triggered (fun ended => ?_) queue regular ?_ isDown executed
        · have finished := returned ended
          rw [waits] at finished
          cases finished
        · dsimp only
          split_ifs <;> simp [nothing]

/-- The timer's thread has been joined. -/
theorem Consistent.joinTimer (consistent : before.Consistent behind) {target : ServerIdentityNo}
    (joins : before.executing = .joiningTimer target)
    (joined : before.server.Serving → before.timer = none ∧ ¬ before.Calls .timer) :
    Consistent { before with executing := .joiningThreads target } behind where
  tidy := consistent.tidy
  served := consistent.served
  timer := consistent.timer
  present _ _ := consistent.present target (.inl joins)
  cleared _ assigns := by simp at assigns
  stage := by
    cases consistent.stage with
    | ahead untriggered nothing regular working calm fresh =>
        rw [joins] at working
        exact .ahead untriggered nothing regular working calm fresh
    | queued earlier term drains queue first second working calm fresh =>
        rw [joins] at working
        exact .queued earlier term drains queue first second working calm fresh
    | leaving triggered waits queue regular leaves fresh =>
        obtain rfl : target = .down := by simpa [joins] using leaves
        have serving : before.server.Serving :=
          consistent.served.resolve_left (consistent.present _ (.inl joins))
        exact .leaving triggered waits queue regular (.inr ⟨.inl rfl, (joined serving).1⟩) fresh
    | down triggered returned queue regular rests isDown executed => simp [joins] at rests

/-- The other threads have been joined, and the identity is left. -/
theorem Consistent.joinThreads (consistent : before.Consistent behind)
    {target : ServerIdentityNo} (joins : before.executing = .joiningThreads target) :
    Consistent { before with server := before.server.leave, executing := .assigning target }
      behind where
  tidy := consistent.tidy.cleared_leave.tidy
  served := by
    have served := consistent.served
    unfold Serving at served ⊢
    rw [leave_identity]
    exact served
  timer isDown := by
    rw [leave_identity] at isDown
    exact consistent.timer isDown
  present _ joins := by simp at joins
  cleared _ _ := consistent.tidy.cleared_leave
  stage := by
    cases consistent.stage with
    | ahead untriggered nothing regular working calm fresh =>
        rw [joins] at working
        refine .ahead untriggered nothing ?_ working calm fresh
        rw [leave_events]
        exact regular
    | queued earlier term drains queue first second working calm fresh =>
        rw [joins] at working
        refine .queued earlier term drains ?_ first second working calm fresh
        rw [leave_events, queue]
    | leaving triggered waits queue regular leaves fresh =>
        obtain ⟨rfl, timer⟩ : target = .down ∧ before.timer = none := by
          simpa [joins] using leaves
        refine .leaving triggered waits ?_ regular (.inr ⟨.inr rfl, timer⟩) fresh
        rw [leave_events, queue]
    | down triggered returned queue regular rests isDown executed => simp [joins] at rests

/-- The two ways in which `currentIdentity` is assigned. -/
theorem Consistent.regular_or_down (consistent : before.Consistent behind)
    {target : ServerIdentityNo} (assigns : before.executing = .assigning target) :
    target.Regular ∨ target = .down ∧ before.timer = none := by
  cases consistent.stage with
  | ahead untriggered nothing regular working calm fresh =>
      rw [assigns] at working
      exact .inl working
  | queued earlier term drains queue first second working calm fresh =>
      rw [assigns] at working
      exact .inl working
  | leaving triggered waits queue regular leaves fresh =>
      exact .inr (by simpa [assigns] using leaves)
  | down triggered returned queue regular rests isDown executed => simp [assigns] at rests

theorem Consistent.assign_regular (consistent : before.Consistent behind)
    {target : ServerIdentityNo} (assigns : before.executing = .assigning target)
    (regular : target.Regular) :
    Consistent { before with server.identity := target, executing := .initializing target }
      behind where
  tidy := ⟨fun _ => (consistent.cleared target (.inl assigns)).requests,
    fun _ => (consistent.cleared target (.inl assigns)).nodes⟩
  served := .inr regular
  timer isDown := absurd isDown regular.ne_down
  present _ joins := by simp at joins
  cleared _ _ := ⟨(consistent.cleared target (.inl assigns)).requests,
    (consistent.cleared target (.inl assigns)).nodes⟩
  stage := by
    cases consistent.stage with
    | ahead untriggered nothing others working calm fresh =>
        exact .ahead untriggered nothing others regular calm fresh
    | queued earlier term drains queue first second working calm fresh =>
        exact .queued earlier term drains queue first second regular calm fresh
    | leaving triggered waits queue others leaves fresh =>
        have down : target = .down ∧ before.timer = none := by simpa [assigns] using leaves
        exact absurd down.1 regular.ne_down
    | down triggered returned queue others rests isDown executed => simp [assigns] at rests

theorem Consistent.assign_down (consistent : before.Consistent behind)
    (assigns : before.executing = .assigning .down) (timer : before.timer = none) :
    Consistent
      { before with server.identity := .down, executing := .testing, downExecuted := true }
      behind where
  tidy := ⟨fun _ => (consistent.cleared _ (.inl assigns)).requests,
    fun _ => (consistent.cleared _ (.inl assigns)).nodes⟩
  served := .inl rfl
  timer _ := timer
  present _ joins := by simp at joins
  cleared _ assigns := by simp at assigns
  stage := by
    cases consistent.stage with
    | ahead untriggered nothing others working calm fresh =>
        rw [assigns] at working
        exact absurd rfl working.ne_down
    | queued earlier term drains queue first second working calm fresh =>
        rw [assigns] at working
        exact absurd rfl working.ne_down
    | leaving triggered waits queue regular leaves fresh =>
        exact .down triggered (fun ended => absurd ended waits) queue regular (.inl rfl) rfl rfl
    | down triggered returned queue others rests isDown executed => simp [assigns] at rests

theorem Consistent.assign (consistent : before.Consistent behind) {target : ServerIdentityNo}
    (assigns : before.executing = .assigning target) :
    Consistent
      { before with
        server.identity := target
        executing := if target = .down then .testing else .initializing target
        downExecuted := before.downExecuted || target = .down } behind := by
  rcases consistent.regular_or_down assigns with regular | ⟨rfl, timer⟩
  · have assigned := consistent.assign_regular assigns regular
    simpa only [regular.ne_down, if_false, decide_false, Bool.or_false] using assigned
  · have assigned := consistent.assign_down assigns timer
    simpa only [if_true, decide_true, Bool.or_true] using assigned

/-- An identity that is initialised is one of three. -/
theorem Consistent.initializes_regular (consistent : before.Consistent behind)
    {target : ServerIdentityNo} (initializes : before.executing = .initializing target) :
    target.Regular := by
  have working : before.executing.Working := by
    cases consistent.stage with
    | ahead untriggered nothing others working calm fresh => exact working
    | queued earlier term drains queue first second working calm fresh => exact working
    | leaving triggered waits queue regular leaves fresh => simp [initializes] at leaves
    | down triggered returned queue regular rests isDown executed => simp [initializes] at rests
  rwa [initializes] at working

/-- `init` queues nothing before it has got through `notify`. -/
theorem cut_enter {target : ServerIdentityNo}
    (initializes : before.executing = .initializing target) :
    ∃ notifying, before.cut info .queue { before.init info target with executing := .testing } =
        { before.init info target with
          server := { (before.server.enter info target).1 with events := before.server.events }
          executing := .testing
          notifying } ∧
      ∀ called, notifying = some called →
        before.notifying = some called ∨ called.1 = .queue ∧ called.2.1.Regular := by
  have asks : before.notice info .queue = before.server.initNotice info target := by
    simp only [notice, initializes]
  cases passes : (before.notice info .queue).filter fun request =>
    before.server.accepts request.2 with
  | none =>
      have events := @Server.enter_events info before.server target
      rw [Server.passed, ← asks, passes, Option.toList_none, List.append_nil] at events
      refine ⟨before.notifying, ?_, fun called same => .inl same⟩
      simp only [cut, passes, ← events]
      rw [← @init_server info target before, ← @init_notifying info target before]
  | some request =>
      refine ⟨some (.queue, request), ?_, fun called same => .inr ?_⟩
      · simp only [cut, passes, init_server]
        rfl
      · obtain rfl := Option.some.inj same
        have asked : before.notice info .queue = some request :=
          (Option.mem_filter_iff.mp (Option.mem_def.mpr passes)).1
        rw [asks] at asked
        exact ⟨rfl, initNotice_regular asked⟩

/-- `init` starts the threads of the new identity. -/
theorem Consistent.enter (consistent : before.Consistent behind)
    {target : ServerIdentityNo} (initializes : before.executing = .initializing target) :
    (before.cut info .queue { before.init info target with executing := .testing }).Consistent
      behind := by
  obtain ⟨notifying, same, -⟩ := @cut_enter info before target initializes
  have working := consistent.initializes_regular initializes
  have cleared := consistent.cleared target (.inr initializes)
  rw [same]
  exact {
    tidy := ⟨(cleared.enter target).requests, (cleared.enter target).nodes⟩
    served := by
      unfold Serving
      rw [enter_identity]
      exact .inr working
    timer := by
      intro isDown
      rw [enter_identity] at isDown
      exact absurd isDown working.ne_down
    present := fun _ joins => by simp at joins
    cleared := fun _ assigns => by simp at assigns
    stage := by
      cases consistent.stage with
      | ahead untriggered nothing regular _ calm fresh =>
          refine .ahead ?_ nothing regular trivial (init_interrupted.trans calm)
            (init_downExecuted.trans fresh)
          rw [init_stop]
          exact untriggered
      | queued earlier term drains queue first second _ calm fresh =>
          exact .queued earlier term (init_stop.trans drains) queue first second trivial
            (init_interrupted.trans calm) (init_downExecuted.trans fresh)
      | leaving triggered waits queue regular leaves fresh => simp [initializes] at leaves
      | down triggered returned queue regular rests isDown executed =>
          simp [initializes] at rests }

/-- Only `init` calls `notify` in the thread of the event queue. -/
theorem cut_queue (other : ∀ target, before.executing ≠ .initializing target) :
    before.cut info .queue after = after := by
  apply cut_of_silent
  cases phase : before.executing with
  | initializing target => exact absurd phase (other target)
  | _ => simp only [notice, phase]

theorem Consistent.stepQueue (consistent : before.Consistent behind)
    (taken : before.QueueSteps info after) :
    (before.cut info .queue after).Consistent behind ∨
      behind ≠ [] ∧ (before.cut info .queue after).Overtaken := by
  cases taken with
  | rest tests empty =>
      rw [cut_queue (by simp [tests])]
      exact .inl (consistent.rest tests empty)
  | take tests queue =>
      rw [cut_queue (by simp [tests])]
      exact consistent.take tests queue
  | wake waits =>
      rw [cut_queue (by simp [waits])]
      exact .inl (consistent.wake waits)
  | joinTimer joins joined =>
      rw [cut_queue (by simp [joins])]
      exact .inl (consistent.joinTimer joins joined)
  | joinThreads joins =>
      rw [cut_queue (by simp [joins])]
      exact .inl (consistent.joinThreads joins)
  | assign assigns =>
      rw [cut_queue (by simp [assigns])]
      exact .inl (consistent.assign assigns)
  | enter initializes => exact .inl (consistent.enter initializes)

/-- The event queue goes on beside a thread in `notify`. -/
theorem Manned.beside (manned : before.Manned) (idle : ¬ before.Calls .queue)
    (notifying : after.notifying = before.notifying)
    (timer : before.Calls .timer → before.Attended .timer → after.Attended .timer)
    (thread : before.Calls .thread → before.Attended .thread → after.Attended .thread) :
    after.Manned := by
  rintro ⟨caller, request⟩ calls
  rw [notifying] at calls
  obtain ⟨regular, attended⟩ := manned _ calls
  have who : before.Calls caller := by
    rw [Calls, calls]
    rfl
  refine ⟨regular, ?_⟩
  cases caller with
  | timer => exact timer who attended
  | thread => exact thread who attended
  | queue => exact absurd who idle

/-- An identity is not left as long as one of its threads is in `notify`. -/
theorem Manned.stepQueue (manned : before.Manned) (consistent : before.Consistent behind)
    (taken : before.QueueSteps info after) (idle : ¬ before.Calls .queue) :
    (before.cut info .queue after).Manned := by
  cases taken with
  | rest tests empty =>
      rw [cut_queue (by simp [tests])]
      refine manned.beside idle rfl (fun _ attended => ⟨attended.1, ?_⟩)
        fun _ attended => ⟨attended.1, fun target => ?_⟩ <;>
        dsimp only <;> split_ifs <;> simp
  | @take target term rest tests queue =>
      rw [cut_queue (by simp [tests])]
      refine manned.beside idle rfl (fun _ attended => ⟨attended.1, ?_⟩)
        fun _ attended => ⟨attended.1, fun target => ?_⟩ <;>
        rw [take_executing_of_ne attended.1] <;> simp
  | wake waits =>
      rw [cut_queue (by simp [waits])]
      refine manned.beside idle rfl (fun _ attended => ⟨attended.1, ?_⟩)
        fun _ attended => ⟨attended.1, fun target => ?_⟩ <;>
        dsimp only <;> split_ifs <;> simp
  | joinTimer joins joined =>
      rw [cut_queue (by simp [joins])]
      have serving := consistent.served.resolve_left (consistent.present _ (.inl joins))
      refine manned.beside idle rfl (fun calls => absurd calls (joined serving).2)
        fun _ attended => ⟨attended.1, fun target => by simp⟩
  | @joinThreads target joins joined =>
      rw [cut_queue (by simp [joins])]
      refine manned.beside idle rfl (fun _ attended => ⟨?_, by simp, ?_⟩)
        fun calls => absurd calls joined
      · rw [leave_identity]
        exact attended.1
      · intro assigns
        obtain rfl := QueuePhase.assigning.inj assigns
        exact attended.2.1 joins
  | @assign target assigns =>
      rw [cut_queue (by simp [assigns])]
      refine manned.beside idle rfl (fun _ attended => ?_)
        fun _ attended => absurd assigns (attended.2 target).1
      have other : target ≠ .down := fun down => attended.2.2 (down ▸ assigns)
      exact ⟨other, by simp [other], by simp [other]⟩
  | @enter target initializes =>
      obtain ⟨notifying, same, calls⟩ := @cut_enter info before target initializes
      have other := (consistent.initializes_regular initializes).ne_down
      rw [same]
      intro called called'
      have identity : (before.server.enter info target).1.identity ≠ .down := by
        rwa [enter_identity]
      rcases calls called called' with earlier | ⟨who, regular⟩
      · obtain ⟨regular, attended⟩ := manned called earlier
        refine ⟨regular, ?_⟩
        cases who : called.1 with
        | timer => exact ⟨identity, by simp, by simp⟩
        | thread => exact ⟨identity, by simp⟩
        | queue => exact ⟨identity, rfl⟩
      · rw [who]
        exact ⟨regular, identity, rfl⟩

/-- A step keeps the threads consistent and queues what it adds behind the transformation to
`Down`, unless what is queued there already overtakes it. -/
theorem Consistent.step (consistent : before.Consistent behind) (manned : before.Manned)
    (taken : before.step info action = some after) :
    after.Consistent (behind ++ before.added action) ∨ behind ≠ [] ∧ after.Overtaken := by
  cases action with
  | push =>
      obtain ⟨called, calls, rfl⟩ := step_push.mp taken
      have kept := (moves_push calls (manned called calls).1).consistent consistent manned
      rw [added, calls]
      exact .inl kept
  | queue =>
      obtain ⟨-, whole, moved, rfl⟩ := (step_eq_some (by simp)).mp taken
      rw [added_of_ne (by simp), List.append_nil]
      exact consistent.stepQueue (stepQueue_cases moved)
  | stop =>
      obtain ⟨-, whole, moved, rfl⟩ := (step_eq_some (by simp)).mp taken
      rw [added_of_ne (by simp), List.append_nil, cut_of_silent rfl]
      exact .inl (consistent.stepStop (stepStop_cases moved))
  | _ =>
      obtain ⟨-, whole, moved, rfl⟩ := (step_eq_some (by simp)).mp taken
      obtain ⟨server, timer, background, rfl⟩ := background moved (by simp)
      obtain ⟨server', timer', notifying, moves, same⟩ := background.moves
      have kept := moves.consistent consistent manned
      rw [ite_self] at kept
      rw [added_of_ne (by simp), same]
      exact .inl kept

theorem Manned.step (manned : before.Manned) (consistent : before.Consistent behind)
    (taken : before.step info action = some after) : after.Manned := by
  cases action with
  | push =>
      obtain ⟨called, calls, rfl⟩ := step_push.mp taken
      exact (moves_push calls (manned called calls).1).manned consistent manned
  | queue =>
      obtain ⟨free, whole, moved, rfl⟩ := (step_eq_some (by simp)).mp taken
      exact manned.stepQueue consistent (stepQueue_cases moved) fun calls => free (.inr calls)
  | stop =>
      obtain ⟨-, whole, moved, rfl⟩ := (step_eq_some (by simp)).mp taken
      rw [cut_of_silent rfl]
      exact manned.stepStop (stepStop_cases moved)
  | _ =>
      obtain ⟨-, whole, moved, rfl⟩ := (step_eq_some (by simp)).mp taken
      obtain ⟨server, timer, background, rfl⟩ := background moved (by simp)
      obtain ⟨server', timer', notifying, moves, same⟩ := background.moves
      rw [same]
      exact moves.manned consistent manned

end Stopping

end Quintet
