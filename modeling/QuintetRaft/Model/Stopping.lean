import QuintetRaft.Model.Notices

/-!
# Stopping a server

`Raft::Impl::stop` and everything that runs beside it.  The thread of the event queue is cut at its
test of the queue, at the joins of `leave`, at the assignment to `currentIdentity` and at `init`;
the thread of `HeartBeatController`, which the rest of the model leaves out, sleeps, runs its
callback, which reads `currentTerm` before it calls `notify`, or notices that it has been
interrupted; the threads of a candidate or a leader and the handlers of RPCs take the steps of
`Server.step`.  Handlers run until `rpc.stop` has returned, since
pausing them in between only delays them.  Nobody pauses the event queue of `Raft::Impl`.

A call of `notify` is cut between its gate and `addEvent`.  The transformer's mutex is held in
between, which keeps out other calls of `notify`, but neither `stop` nor the event queue.  Only the
handlers, for which `rpc.stop` waits, pass both at once.  What a thread does behind its call of
`notify` is to return; `init` of a candidate starts its threads there, which the model does
before.
-/

namespace Quintet

/-- The two callbacks of `HeartBeatController`. -/
inductive HeartBeat
  /-- The election timeout of a follower or a candidate, which runs once. -/
  | election
  /-- The heartbeat of a leader, which is repeated. -/
  | heartBeat
  deriving DecidableEq, Repr

/-- How far the thread of `HeartBeatController` is. -/
inductive TimerThread
  /-- It sleeps before it runs this callback. -/
  | sleeping (callback : HeartBeat)
  /-- The callback of the election timeout has read this term. -/
  | timedOut (term : Nat)
  deriving DecidableEq, Repr

/-- The thread that calls `notify`. -/
inductive Caller
  /-- That of the timer. -/
  | timer
  /-- Another one that an identity has started. -/
  | thread
  /-- That of the event queue. -/
  | queue
  deriving DecidableEq, Repr

/-- How far `EventQueue::Impl::execute` is. -/
inductive QueuePhase
  /-- It has the mutex and is about to test whether the queue is empty. -/
  | testing
  /-- It waits on the condition variable. -/
  | waiting
  /-- It runs `transform` and is about to join the thread of the timer. -/
  | joiningTimer (target : ServerIdentityNo)
  /-- It is about to join the other threads of the identity it leaves. -/
  | joiningThreads (target : ServerIdentityNo)
  /-- It is about to assign `currentIdentity`. -/
  | assigning (target : ServerIdentityNo)
  /-- It is about to run `init`. -/
  | initializing (target : ServerIdentityNo)
  /-- It has returned. -/
  | done
  deriving DecidableEq, Repr

/-- How far `Raft::Impl::stop` is. -/
inductive StopPhase
  /-- It has not been called. -/
  | outside
  /-- It waits for the RPCs in `rpc.stop`. -/
  | stoppingRpc
  /-- It is about to trigger the transformation to `Down`. -/
  | triggering
  /-- It waits for the event queue to be empty. -/
  | draining
  /-- It is about to interrupt the thread of the event queue. -/
  | interrupting
  /-- It is about to join it. -/
  | joining
  /-- It has returned. -/
  | returned
  deriving DecidableEq, Repr

/-- The transformation to `Down` has been triggered. -/
def StopPhase.Triggered : StopPhase → Prop
  | .outside | .stoppingRpc | .triggering => False
  | .draining | .interrupting | .joining | .returned => True

instance : (phase : StopPhase) → Decidable phase.Triggered
  | .outside | .stoppingRpc | .triggering => .isFalse id
  | .draining | .interrupting | .joining | .returned => .isTrue trivial

namespace Server

/-- The handler of the event calls `HeartBeatController::restart`. -/
def restartsTimer (srv : Server) : Event → Prop
  | .rpcRequestVote msg => srv.identity = .follower ∧ srv.state.grants msg
  | .rpcAppendEntries msg => srv.identity = .follower ∧ srv.state.currentTerm ≤ msg.term
  | _ => False

instance (srv : Server) : (event : Event) → Decidable (srv.restartsTimer event)
  | .rpcRequestVote _ | .rpcAppendEntries _ => inferInstanceAs (Decidable (_ ∧ _))
  | .rpcAddLog _ | .addLogState | .timeout | .transform | .receiveVote .. | .startAppending _
  | .interruptAppending _ | .sendAppendEntries _ | .failAppendEntries _ | .receiveAppendReply ..
  | .countReplica _ => .isFalse id

/-- The handler of the event calls `notify`. -/
def handlerNotifies (srv : Server) : Event → Prop
  | .rpcRequestVote msg =>
      (srv.identity = .candidate ∨ srv.identity = .leader) ∧ srv.state.currentTerm ≠ msg.term
  | .rpcAppendEntries msg =>
      srv.identity = .candidate ∧ msg.term ≤ srv.state.currentTerm ∨
        srv.identity = .leader ∧ msg.term < srv.state.currentTerm
  | _ => False

instance (srv : Server) : (event : Event) → Decidable (srv.handlerNotifies event)
  | .rpcRequestVote _ => inferInstanceAs (Decidable (_ ∧ _))
  | .rpcAppendEntries _ => inferInstanceAs (Decidable (_ ∨ _))
  | .rpcAddLog _ | .addLogState | .timeout | .transform | .receiveVote .. | .startAppending _
  | .interruptAppending _ | .sendAppendEntries _ | .failAppendEntries _ | .receiveAppendReply ..
  | .countReplica _ => .isFalse id

/-- The threads that `leave` joins after the timer have returned. -/
def Joined (info : ServerInfo) (srv : Server) : Prop :=
  match srv.identity with
  | .candidate => srv.candidate.requests = []
  | .leader =>
      ∀ target ∈ info.others, ∀ node ∈ srv.leader.followerNodes target,
        node.appendingThread = .finished
  | _ => True

instance (info : ServerInfo) (srv : Server) : Decidable (srv.Joined info) :=
  match role : srv.identity with
  | .candidate => decidable_of_iff (srv.candidate.requests = []) (by simp [Joined, role])
  | .leader =>
      decidable_of_iff (∀ target ∈ info.others, ∀ node ∈ srv.leader.followerNodes target,
        node.appendingThread = .finished) (by simp [Joined, role])
  | .follower | .bogus | .down | .error => .isTrue (by simp [Joined, role])

end Server

/-- A server with the thread of its event queue, the thread of its timer and the caller of
`stop`. -/
structure Stopping where
  /-- The server. -/
  server : Server
  /-- The callback bound last to the timer. -/
  bound : HeartBeat := .election
  /-- The timer's thread, if it runs. -/
  timer : Option TimerThread := none
  /-- The thread of the event queue. -/
  executing : QueuePhase := .testing
  /-- It has been interrupted. -/
  interrupted : Bool := false
  /-- The caller of `stop`. -/
  stop : StopPhase := .outside
  /-- A thread that has passed the gate of `notify`, with the request that it is about to queue. -/
  notifying : Option (Caller × ServerIdentityNo × Nat) := none
  /-- History: a transformation to `Down` has been executed; no step reads it. -/
  downExecuted : Bool := false

/-- Who takes a step. -/
inductive StopAction
  /-- `asyncRun` is called, before `stop`. -/
  | asyncRun
  /-- A handler, or a thread of an identity, takes a step. -/
  | server (event : Event)
  /-- The election timeout is over, and its callback reads `currentTerm`. -/
  | readTerm
  /-- The callback calls `notify`. -/
  | timeout
  /-- The thread of the timer notices in its sleep that it has been interrupted. -/
  | timerInterrupted
  /-- A vote request fails or is interrupted, and its thread returns. -/
  | failRequest (target : ServerId) (msg : RequestVoteMessage)
  /-- The thread of the event queue goes on. -/
  | queue
  /-- The thread in `notify` puts its request into the event queue. -/
  | push
  /-- `stop` is called or goes on. -/
  | stop

namespace Stopping

/-- A server as `configure` leaves it. -/
def configured (state : ServerState) : Stopping where
  server := { state, identity := .down }

/-- `HeartBeatController::bind` and `start`; the latter gives up when the thread is running. -/
def startTimer (callback : HeartBeat) (stopping : Stopping) : Stopping :=
  { stopping with bound := callback, timer := some (stopping.timer.getD (.sleeping callback)) }

/-- The term with which the election timeout is about to call `notify`. -/
def timedOut (stopping : Stopping) : Option Nat :=
  match stopping.timer with
  | some (.timedOut term) => some term
  | _ => none

/-- `init` of an identity. -/
def init (info : ServerInfo) (target : ServerIdentityNo) (stopping : Stopping) : Stopping :=
  let entered := { stopping with server := (stopping.server.enter info target).1 }
  match target with
  | .follower | .candidate => entered.startTimer .election
  | .leader => entered.startTimer .heartBeat
  | .bogus | .down | .error => entered

/-- `Raft::Impl::triggerTransformation`, called from outside `notify`. -/
def trigger (target : ServerIdentityNo) (stopping : Stopping) : Stopping :=
  { stopping with server.events := stopping.server.events ++ [(target, invalidTerm)] }

/-- The thread is in `notify`, past the gate. -/
def Calls (stopping : Stopping) (caller : Caller) : Prop :=
  stopping.notifying.map Prod.fst = some caller

instance (stopping : Stopping) (caller : Caller) : Decidable (stopping.Calls caller) :=
  inferInstanceAs (Decidable (_ = _))

/-- A handler or a thread may run. -/
def Runs (stopping : Stopping) : Event → Prop
  | .rpcRequestVote _ | .rpcAppendEntries _ | .rpcAddLog _ | .addLogState =>
      stopping.stop = .outside ∨ stopping.stop = .stoppingRpc
  -- these two are steps of their own here
  | .timeout | .transform => False
  | .startAppending _ => stopping.timer = some (.sleeping .heartBeat)
  | _ => True

instance (stopping : Stopping) : (event : Event) → Decidable (stopping.Runs event)
  | .rpcRequestVote _ | .rpcAppendEntries _ | .rpcAddLog _ | .addLogState =>
      inferInstanceAs (Decidable (_ ∨ _))
  | .timeout | .transform => .isFalse id
  | .startAppending _ => inferInstanceAs (Decidable (_ = _))
  | .receiveVote .. | .interruptAppending _ | .sendAppendEntries _ | .failAppendEntries _
  | .receiveAppendReply .. | .countReplica _ => .isTrue trivial

/-- An event has been taken: `transform` leaves the current identity unless it is `Down`. -/
def take (target : ServerIdentityNo) (rest : List (ServerIdentityNo × Nat))
    (stopping : Stopping) : Stopping :=
  { stopping with
    server.events := rest
    executing :=
      if stopping.server.identity = .down then .assigning target else .joiningTimer target }

/-- The next step of the event queue. -/
def stepQueue (info : ServerInfo) (stopping : Stopping) : Option Stopping :=
  match stopping.executing with
  | .testing =>
      match stopping.server.events with
      | [] =>
          -- the wait is a point of interruption
          some { stopping with executing := if stopping.interrupted then .done else .waiting }
      | (target, _) :: rest => some (stopping.take target rest)
  | .waiting =>
      some { stopping with executing := if stopping.interrupted then .done else .testing }
  | .joiningTimer target =>
      if stopping.server.Serving → stopping.timer = none ∧ ¬ stopping.Calls .timer then
        some { stopping with executing := .joiningThreads target }
      else none
  | .joiningThreads target =>
      if stopping.server.Joined info ∧ ¬ stopping.Calls .thread then
        some { stopping with server := stopping.server.leave, executing := .assigning target }
      else none
  | .assigning target =>
      some { stopping with
        server.identity := target
        executing := if target = .down then .testing else .initializing target
        downExecuted := stopping.downExecuted || target = .down }
  | .initializing target => some { stopping.init info target with executing := .testing }
  | .done => none

/-- The next step of `Raft::Impl::stop`. -/
def stepStop (stopping : Stopping) : Option Stopping :=
  match stopping.stop with
  | .outside => some { stopping with stop := .stoppingRpc }
  | .stoppingRpc =>
      if stopping.server.leader.addingLog = none then some { stopping with stop := .triggering }
      else none
  | .triggering => some { stopping.trigger .down with stop := .draining }
  | .draining =>
      if stopping.server.events = [] then some { stopping with stop := .interrupting } else none
  | .interrupting => some { stopping with interrupted := true, stop := .joining }
  | .joining =>
      if stopping.executing = .done then some { stopping with stop := .returned } else none
  | .returned => none

/-- One step of one thread, in which a call of `notify` queues at once what passes the gate. -/
def stepAtOnce (info : ServerInfo) (stopping : Stopping) : StopAction → Option Stopping
  | .asyncRun => if stopping.stop = .outside then some (stopping.trigger .follower) else none
  | .server event =>
      if stopping.Runs event then
        (stopping.server.step info event).map fun result =>
          { stopping with
            server := result.1
            timer :=
              if stopping.server.restartsTimer event then some (.sleeping stopping.bound)
              else stopping.timer }
      else none
  | .readTerm =>
      if stopping.timer = some (.sleeping .election) then
        some { stopping with timer := some (.timedOut stopping.server.state.currentTerm) }
      else none
  | .timeout =>
      stopping.timedOut.map fun term =>
        { stopping with server := stopping.server.notify .candidate term, timer := none }
  | .timerInterrupted =>
      match stopping.executing with
      | .joiningTimer _ =>
          -- a callback is not interrupted
          if stopping.timedOut = none then some { stopping with timer := none } else none
      | _ => none
  | .failRequest target msg =>
      if stopping.server.candidate.requests.contains (target, msg) then
        some { stopping with
          server.candidate :=
            { stopping.server.candidate with
              requests := stopping.server.candidate.requests.erase (target, msg) } }
      else none
  | .queue => stopping.stepQueue info
  | .push => none
  | .stop => stopping.stepStop

/-- What a step passes to `notify`, when no RPC runs any more. -/
def notice (info : ServerInfo) (stopping : Stopping) :
    StopAction → Option (ServerIdentityNo × Nat)
  | .timeout => stopping.timedOut.map fun term => (.candidate, term)
  | .server event => stopping.server.notice info event
  | .queue =>
      match stopping.executing with
      | .initializing target => stopping.server.initNotice info target
      | _ => none
  | _ => none

/-- The step calls `notify`. -/
def Notifies (info : ServerInfo) (stopping : Stopping) (action : StopAction) : Prop :=
  (stopping.notice info action).isSome ∨
    match action with
    | .server event => stopping.server.handlerNotifies event
    | _ => False

instance (info : ServerInfo) (stopping : Stopping) :
    (action : StopAction) → Decidable (stopping.Notifies info action)
  | .server _ => inferInstanceAs (Decidable (_ ∨ _))
  | .asyncRun | .readTerm | .timeout | .timerInterrupted | .failRequest .. | .queue | .push
  | .stop => inferInstanceAs (Decidable (_ ∨ False))

/-- The step has to wait for the thread in `notify`, since it calls `notify` itself or is one of
that thread, or it joins the thread of the timer, whose callback runs. -/
def Waits (info : ServerInfo) (stopping : Stopping) (action : StopAction) : Prop :=
  stopping.notifying.isSome ∧ stopping.Notifies info action ∨
    match action with
    | .server event =>
        (stopping.Calls .timer ∨ stopping.timedOut.isSome) ∧ stopping.server.restartsTimer event
    | .queue => stopping.Calls .queue
    | _ => False

instance (info : ServerInfo) (stopping : Stopping) :
    (action : StopAction) → Decidable (stopping.Waits info action)
  | .server _ => inferInstanceAs (Decidable (_ ∨ (_ ∨ _) ∧ _))
  | .queue => inferInstanceAs (Decidable (_ ∨ _))
  | .asyncRun | .readTerm | .timeout | .timerInterrupted | .failRequest .. | .push | .stop =>
      inferInstanceAs (Decidable (_ ∨ False))

/-- The thread that takes a step. -/
def caller : StopAction → Caller
  | .timeout => .timer
  | .queue => .queue
  | _ => .thread

/-- What a step does up to the gate of `notify` and past it; the request is not queued yet. -/
def cut (info : ServerInfo) (before : Stopping) (action : StopAction) (after : Stopping) :
    Stopping :=
  match (before.notice info action).filter fun request => before.server.accepts request.2 with
  | none => after
  | some request =>
      { after with
        server.events := before.server.events
        notifying := some (caller action, request) }

/-- One step of one thread. -/
def step (info : ServerInfo) (stopping : Stopping) (action : StopAction) : Option Stopping :=
  if stopping.Waits info action then none
  else
    match action with
    | .push =>
        stopping.notifying.map fun called =>
          { stopping with
            server.events := stopping.server.events ++ [called.2]
            notifying := none }
    | action => (stopping.stepAtOnce info action).map (stopping.cut info action)

/-! ## What a step can do -/

/-- What the caller of `stop` does. -/
inductive StopSteps (before : Stopping) : Stopping → Prop
  | call (outside : before.stop = .outside) : StopSteps before { before with stop := .stoppingRpc }
  | stopRpc (waits : before.stop = .stoppingRpc) :
      StopSteps before { before with stop := .triggering }
  | trigger (triggers : before.stop = .triggering) :
      StopSteps before { before.trigger .down with stop := .draining }
  | drain (drains : before.stop = .draining) (empty : before.server.events = []) :
      StopSteps before { before with stop := .interrupting }
  | interrupt (interrupts : before.stop = .interrupting) :
      StopSteps before { before with interrupted := true, stop := .joining }
  | join (joins : before.stop = .joining) (ended : before.executing = .done) :
      StopSteps before { before with stop := .returned }

theorem stepStop_cases {before after : Stopping} (taken : before.stepStop = some after) :
    before.StopSteps after := by
  unfold stepStop at taken
  cases phase : before.stop with
  | outside =>
      simp only [phase] at taken
      cases taken
      exact .call phase
  | stoppingRpc =>
      simp only [phase] at taken
      obtain ⟨-, rfl⟩ := Execution.guarded_eq_some.mp taken
      exact .stopRpc phase
  | triggering =>
      simp only [phase] at taken
      cases taken
      exact .trigger phase
  | draining =>
      simp only [phase] at taken
      obtain ⟨empty, rfl⟩ := Execution.guarded_eq_some.mp taken
      exact .drain phase empty
  | interrupting =>
      simp only [phase] at taken
      cases taken
      exact .interrupt phase
  | joining =>
      simp only [phase] at taken
      obtain ⟨ended, rfl⟩ := Execution.guarded_eq_some.mp taken
      exact .join phase ended
  | returned => simp [phase] at taken

/-- What the thread of the event queue does. -/
inductive QueueSteps (info : ServerInfo) (before : Stopping) : Stopping → Prop
  | rest (tests : before.executing = .testing) (empty : before.server.events = []) :
      QueueSteps info before
        { before with executing := if before.interrupted then .done else .waiting }
  | take {target : ServerIdentityNo} {term : Nat} {rest : List (ServerIdentityNo × Nat)}
      (tests : before.executing = .testing)
      (queue : before.server.events = (target, term) :: rest) :
      QueueSteps info before (before.take target rest)
  | wake (waits : before.executing = .waiting) :
      QueueSteps info before
        { before with executing := if before.interrupted then .done else .testing }
  | joinTimer {target : ServerIdentityNo} (joins : before.executing = .joiningTimer target)
      (joined : before.server.Serving → before.timer = none ∧ ¬ before.Calls .timer) :
      QueueSteps info before { before with executing := .joiningThreads target }
  | joinThreads {target : ServerIdentityNo} (joins : before.executing = .joiningThreads target)
      (joined : ¬ before.Calls .thread) :
      QueueSteps info before
        { before with server := before.server.leave, executing := .assigning target }
  | assign {target : ServerIdentityNo} (assigns : before.executing = .assigning target) :
      QueueSteps info before
        { before with
          server.identity := target
          executing := if target = .down then .testing else .initializing target
          downExecuted := before.downExecuted || target = .down }
  | enter {target : ServerIdentityNo} (initializes : before.executing = .initializing target) :
      QueueSteps info before { before.init info target with executing := .testing }

theorem stepQueue_cases {info : ServerInfo} {before after : Stopping}
    (taken : before.stepQueue info = some after) : before.QueueSteps info after := by
  unfold stepQueue at taken
  cases phase : before.executing with
  | testing =>
      simp only [phase] at taken
      cases queue : before.server.events with
      | nil =>
          simp only [queue] at taken
          cases taken
          exact .rest phase queue
      | cons head rest =>
          simp only [queue] at taken
          cases taken
          exact .take phase queue
  | waiting =>
      simp only [phase] at taken
      cases taken
      exact .wake phase
  | joiningTimer target =>
      simp only [phase] at taken
      obtain ⟨joined, rfl⟩ := Execution.guarded_eq_some.mp taken
      exact .joinTimer phase joined
  | joiningThreads target =>
      simp only [phase] at taken
      obtain ⟨joined, rfl⟩ := Execution.guarded_eq_some.mp taken
      exact .joinThreads phase joined.2
  | assigning target =>
      simp only [phase] at taken
      cases taken
      exact .assign phase
  | initializing target =>
      simp only [phase] at taken
      cases taken
      exact .enter phase
  | done => simp [phase] at taken

section Take

variable {target : ServerIdentityNo} {rest : List (ServerIdentityNo × Nat)} {stopping : Stopping}

theorem take_executing_of_down (isDown : stopping.server.identity = .down) :
    (stopping.take target rest).executing = .assigning target := if_pos isDown

theorem take_executing_of_ne (isUp : stopping.server.identity ≠ .down) :
    (stopping.take target rest).executing = .joiningTimer target := if_neg isUp

end Take

section Init

variable {info : ServerInfo} {target : ServerIdentityNo} {stopping : Stopping}

@[simp] theorem init_server :
    (stopping.init info target).server = (stopping.server.enter info target).1 := by
  cases target <;> rfl

@[simp] theorem init_stop : (stopping.init info target).stop = stopping.stop := by
  cases target <;> rfl

@[simp] theorem init_interrupted :
    (stopping.init info target).interrupted = stopping.interrupted := by
  cases target <;> rfl

@[simp] theorem init_notifying : (stopping.init info target).notifying = stopping.notifying := by
  cases target <;> rfl

@[simp] theorem init_downExecuted :
    (stopping.init info target).downExecuted = stopping.downExecuted := by
  cases target <;> rfl

end Init

section Step

variable {info : ServerInfo} {before after : Stopping} {action : StopAction}

theorem cut_of_silent (silent : before.notice info action = none) :
    before.cut info action after = after := by
  rw [cut, silent]
  rfl

/-- A step that does not queue a request is cut at the gate of `notify`, if it gets there. -/
theorem step_eq_some (other : action ≠ .push) :
    before.step info action = some after ↔ ¬ before.Waits info action ∧
      ∃ whole, before.stepAtOnce info action = some whole ∧
        before.cut info action whole = after := by
  by_cases waits : before.Waits info action
  · simp [step, waits]
  · cases action with
    | push => exact absurd rfl other
    | _ => simp [step, waits, Option.map_eq_some_iff]

theorem step_push : before.step info .push = some after ↔
    ∃ called, before.notifying = some called ∧
      after = { before with
        server.events := before.server.events ++ [called.2]
        notifying := none } := by
  have free : ¬ before.Waits info .push := by
    rintro (⟨-, calls⟩ | waits)
    · rcases calls with asks | calls
      · cases asks
      · exact calls
    · exact waits
  simp only [step, free, if_false, Option.map_eq_some_iff]
  exact exists_congr fun _ => and_congr_right fun _ => eq_comm

/-- When nobody is in `notify`, the event queue does not have to wait. -/
theorem not_waits (free : before.notifying = none) : ¬ before.Waits info .queue := by
  rintro (⟨calls, -⟩ | waits)
  · rw [free] at calls
    cases calls
  · simp [Calls, free] at waits

theorem step_of_free (free : before.notifying = none) {whole : Stopping}
    (taken : before.stepAtOnce info .queue = some whole) :
    before.step info .queue = some (before.cut info .queue whole) :=
  (step_eq_some (by simp)).mpr ⟨not_waits free, whole, taken, rfl⟩

end Step

section Transform

variable (info : ServerInfo) {stopping : Stopping} {target : ServerIdentityNo}

/-- A run of the thread of the event queue with its calls of `notify`. -/
def RunsQueue (stopping : Stopping) (server : Server) : Prop :=
  ∃ actions final, (∀ action ∈ actions, action = .queue ∨ action = .push) ∧
    Execution.run (step info) actions stopping = some final ∧
    final.executing = .testing ∧ final.notifying = none ∧ final.server = server

variable {info} in
theorem RunsQueue.cons {after : Stopping} {server : Server}
    (taken : stopping.step info .queue = some after) (runs : after.RunsQueue info server) :
    stopping.RunsQueue info server := by
  obtain ⟨actions, final, own, execution, rest⟩ := runs
  exact ⟨.queue :: actions, final, List.forall_mem_cons.mpr ⟨.inl rfl, own⟩,
    (Execution.run_cons taken).trans execution, rest⟩

variable {info} in
/-- A step of the event queue outside `init`. -/
theorem RunsQueue.quietly {after : Stopping} {server : Server} (free : stopping.notifying = none)
    (silent : stopping.notice info .queue = none)
    (taken : stopping.stepAtOnce info .queue = some after) (runs : after.RunsQueue info server) :
    stopping.RunsQueue info server := by
  have first := step_of_free free taken
  rw [cut_of_silent silent] at first
  exact .cons first runs

/-- `init`, which may call `notify`. -/
theorem run_initializing (initializes : stopping.executing = .initializing target)
    (free : stopping.notifying = none) :
    stopping.RunsQueue info (stopping.server.enter info target).1 := by
  have taken : stopping.stepAtOnce info .queue =
      some { stopping.init info target with executing := .testing } := by
    simp [stepAtOnce, stepQueue, initializes]
  have first := step_of_free free taken
  have asks : stopping.notice info .queue = stopping.server.initNotice info target := by
    simp [notice, initializes]
  have events := @Server.enter_events info stopping.server target
  rw [Server.passed, ← asks] at events
  cases called : (stopping.notice info .queue).filter
    fun request => stopping.server.accepts request.2 with
  | none =>
      refine .cons first ⟨[], _, by simp, rfl, ?_⟩
      simp only [cut, called]
      exact ⟨trivial, init_notifying.trans free, init_server⟩
  | some request =>
      rw [called] at events
      have second := (@step_push info (stopping.cut info .queue
        { stopping.init info target with executing := .testing }) _).mpr
          ⟨(.queue, request), by simp only [cut, called]; rfl, rfl⟩
      refine .cons first ⟨[.push], _, by simp, Execution.run_cons second, ?_⟩
      simp only [cut, called]
      refine ⟨trivial, trivial, ?_⟩
      rw [init_server]
      generalize (stopping.server.enter info target).1 = entered at events
      obtain ⟨_, _, _, _, _, _⟩ := entered
      simp only [Option.toList_some] at events
      subst events
      rfl

/-- The assignment to `currentIdentity` and `init`. -/
theorem run_assigning (assigns : stopping.executing = .assigning target)
    (free : stopping.notifying = none) :
    stopping.RunsQueue info (stopping.server.enter info target).1 := by
  have silent : stopping.notice info .queue = none := by
    simp [notice, assigns]
  by_cases down : target = .down
  · subst down
    have taken : stopping.stepAtOnce info .queue = some
        { stopping with
          server.identity := .down
          executing := .testing
          downExecuted := stopping.downExecuted || true } := by
      simp [stepAtOnce, stepQueue, assigns]
    exact .quietly free silent taken ⟨[], _, by simp, rfl, rfl, free, rfl⟩
  · have taken : stopping.stepAtOnce info .queue = some
        { stopping with
          server.identity := target
          executing := .initializing target
          downExecuted := stopping.downExecuted || false } := by
      simp [stepAtOnce, stepQueue, assigns, down]
    exact .quietly free silent taken (@run_initializing info
      { stopping with
        server.identity := target
        executing := .initializing target
        downExecuted := stopping.downExecuted || false } target rfl free)

/-- When no thread is in its way, the thread of the event queue does what `Server.transform` does
at once. -/
theorem run_transform {term : Nat} {rest : List (ServerIdentityNo × Nat)}
    (tests : stopping.executing = .testing)
    (queue : stopping.server.events = (target, term) :: rest) (free : stopping.timer = none)
    (joined : stopping.server.Joined info) (quiet : stopping.notifying = none) :
    stopping.RunsQueue info ({ stopping.server with events := rest }.transform info target).1 := by
  have silent : ∀ other : Stopping, (∀ target, other.executing ≠ .initializing target) →
      other.notice info .queue = none := by
    intro other apart
    cases phase : other.executing with
    | initializing target => exact absurd phase (apart target)
    | _ => simp only [notice, phase]
  have nobody : ∀ caller, ¬ stopping.Calls caller := by
    simp [Calls, quiet]
  by_cases down : stopping.server.identity = .down
  · have taken : stopping.stepAtOnce info .queue = some
        { stopping with server.events := rest, executing := .assigning target } := by
      simp [stepAtOnce, stepQueue, take, tests, queue, down]
    have stays : { stopping.server with events := rest }.leave =
        { stopping.server with events := rest } := by
      simp [Server.leave, down]
    rw [Server.transform, stays]
    exact .quietly quiet (silent _ (by simp [tests])) taken (@run_assigning info
      { stopping with server.events := rest, executing := .assigning target } target rfl quiet)
  · have taken : stopping.stepAtOnce info .queue = some
        { stopping with server.events := rest, executing := .joiningTimer target } := by
      simp [stepAtOnce, stepQueue, take, tests, queue, down]
    have joinsTimer :
        stepAtOnce info { stopping with server.events := rest, executing := .joiningTimer target }
          .queue = some
        { stopping with server.events := rest, executing := .joiningThreads target } :=
      if_pos fun _ => ⟨free, nobody .timer⟩
    have joinsThreads :
        stepAtOnce info { stopping with server.events := rest, executing := .joiningThreads target }
          .queue = some
        { stopping with
          server := { stopping.server with events := rest }.leave
          executing := .assigning target } :=
      if_pos ⟨joined, nobody .thread⟩
    have assigns := @run_assigning info
      { stopping with
        server := { stopping.server with events := rest }.leave
        executing := .assigning target } target rfl quiet
    exact .quietly quiet (silent _ (by simp [tests])) taken (.quietly quiet (silent _ (by simp))
      joinsTimer (.quietly quiet (silent _ (by simp)) joinsThreads assigns))

end Transform

end Stopping

end Quintet
