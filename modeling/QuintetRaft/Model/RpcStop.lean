import QuintetRaft.Model.RpcService

/-!
# Stopping the RPCs

`RpcService::stop` with `preRpc` and the counter `numRpcRemaining`, which the rest of the service
does not need.  `stop` clears the flag, notifies, takes the mutex and waits on the condition
variable until the counter is zero; then it shuts the server down, which still has the mutex.  gRPC
gives every RPC that it accepts a thread, accepts none once `Shutdown` has been called, and comes
back from `Shutdown` when all threads have answered.
-/

namespace Quintet

/-- How far `stop` is. -/
inductive ShutdownPhase
  /-- It has not been called. -/
  | outside
  /-- It has cleared the flag and is about to notify. -/
  | notifying
  /-- It is about to take the mutex. -/
  | locking
  /-- It has the mutex and is about to read the counter. -/
  | checking
  /-- It has found RPCs remaining and is about to wait. -/
  | suspending
  /-- It waits on the condition variable, without the mutex. -/
  | waiting
  /-- It has been woken up and is about to take the mutex again. -/
  | woken
  /-- It has found no RPC remaining and is about to call `Shutdown`. -/
  | closing
  /-- It is in `Shutdown`. -/
  | shutting
  /-- It has joined the thread of the server and returned. -/
  | returned
  deriving DecidableEq, Repr

namespace ShutdownPhase

/-- `stop` has the mutex. -/
def HasMutex : ShutdownPhase → Prop
  | .checking | .suspending | .closing | .shutting => True
  | _ => False

/-- It has found no RPC remaining. -/
def Past : ShutdownPhase → Prop
  | .closing | .shutting | .returned => True
  | _ => False

/-- gRPC accepts RPCs. -/
def Accepts : ShutdownPhase → Prop
  | .shutting | .returned => False
  | _ => True

instance (phase : ShutdownPhase) : Decidable phase.Accepts := by
  cases phase <;> first | exact .isTrue trivial | exact .isFalse id

/-- What `notify_all` does to it. -/
def notify : ShutdownPhase → ShutdownPhase
  | .waiting => .woken
  | phase => phase

end ShutdownPhase

/-- The thread of an RPC. -/
structure RpcThread where
  /-- How far it is; it has not arrived before it has passed `preRpc`. -/
  phase : RpcPhase := .absent
  /-- It is counted in `numRpcRemaining`. -/
  counted : Bool := false
  deriving DecidableEq, Repr

/-- Who can have the mutex. -/
inductive RpcParty
  | rpc (thread : ℕ)
  | stop
  deriving DecidableEq, Repr

/-- `RpcService::Impl` with the threads of the RPCs, of the event queue and of `stop`. -/
structure StoppingService where
  /-- The flag. -/
  paused : Bool := false
  /-- The counter. -/
  numRpcRemaining : ℕ := 0
  /-- Who has the mutex. -/
  rpcing : Option RpcParty := none
  /-- The threads of the RPCs, in the order in which these were accepted. -/
  threads : List RpcThread := []
  /-- The thread of the event queue. -/
  transforming : TransformPhase := .outside
  /-- The thread that calls `stop`. -/
  stopping : ShutdownPhase := .outside
  /-- History: the RPCs whose handlers have been called, oldest first. -/
  called : List ℕ := []
  deriving DecidableEq, Repr

/-- What happens next: one lock acquisition, read or write. -/
inductive ServiceAction
  /-- gRPC accepts an RPC. -/
  | accept
  /-- The thread of an RPC goes on. -/
  | rpc (thread : ℕ)
  /-- It wakes up although nobody has notified it. -/
  | wake (thread : ℕ)
  /-- `pause`. -/
  | pause
  /-- `resume` goes on. -/
  | resume
  /-- `stop` is called. -/
  | stop
  /-- It goes on. -/
  | goOn
  /-- It wakes up although nobody has notified it. -/
  | wakeStop
  deriving DecidableEq, Repr

namespace StoppingService

/-- `cv.notify_all()`. -/
def notifyAll (service : StoppingService) : StoppingService :=
  { service with
    threads := service.threads.map fun thread => { thread with phase := thread.phase.notify }
    stopping := service.stopping.notify }

/-- The thread of an RPC goes on to another phase. -/
def move (id : ℕ) (thread : RpcThread) (service : StoppingService) : StoppingService :=
  { service with threads := service.threads.set id thread }

/-- The bound functions with `preRpc`: it counts; the lock is taken before the handler and released
before the deleter of `preRpc`, which counts down and notifies. -/
def goRpc (id : ℕ) (thread : RpcThread) (service : StoppingService) : Option StoppingService :=
  match thread.phase with
  | .absent =>
      some { service.move id { phase := .arrived, counted := true } with
        numRpcRemaining := service.numRpcRemaining + 1 }
  | .arrived | .woken =>
      if service.rpcing = none then
        some { service.move id { thread with phase := .locked } with rpcing := some (.rpc id) }
      else none
  | .locked =>
      if service.paused then some (service.move id { thread with phase := .suspending })
      else
        some { service.move id { thread with phase := .handling } with
          called := service.called ++ [id] }
  | .suspending => some { service.move id { thread with phase := .waiting } with rpcing := none }
  | .handling => some { service.move id { thread with phase := .leaving } with rpcing := none }
  | .leaving =>
      if thread.counted then
        some { service.move id { thread with counted := false } with
          numRpcRemaining := service.numRpcRemaining - 1 }
      else some (service.move id { thread with phase := .done }).notifyAll
  | .waiting | .done => none

/-- `stop` after it has cleared the flag. -/
def goStop (service : StoppingService) : Option StoppingService :=
  match service.stopping with
  | .notifying => some { service with stopping := .locking }.notifyAll
  | .locking | .woken =>
      if service.rpcing = none then
        some { service with stopping := .checking, rpcing := some .stop }
      else none
  | .checking =>
      some { service with
        stopping := if service.numRpcRemaining = 0 then .closing else .suspending }
  | .suspending => some { service with stopping := .waiting, rpcing := none }
  | .closing => some { service with stopping := .shutting }
  | .shutting =>
      if ∀ thread ∈ service.threads, thread.phase = .done then
        some { service with stopping := .returned, rpcing := none }
      else none
  | .outside | .waiting | .returned => none

/-- One step of a thread. -/
def step (service : StoppingService) : ServiceAction → Option StoppingService
  | .accept =>
      if service.stopping.Accepts then some { service with threads := service.threads ++ [{}] }
      else none
  | .rpc id => do
      let thread ← service.threads[id]?
      service.goRpc id thread
  | .wake id => do
      let thread ← service.threads[id]?
      if thread.phase = .waiting then some (service.move id { thread with phase := .woken })
      else none
  | .pause =>
      if service.transforming = .outside then
        some { service with paused := true, transforming := .changing }
      else none
  | .resume =>
      match service.transforming with
      | .changing => some { service with paused := false, transforming := .notifying }
      | .notifying => some { service with transforming := .outside }.notifyAll
      | .outside => none
  | .stop =>
      if service.stopping = .outside then
        some { service with paused := false, stopping := .notifying }
      else none
  | .goOn => service.goStop
  | .wakeStop =>
      if service.stopping = .waiting then some { service with stopping := .woken } else none

/-- No thread can go on by itself. -/
def AtRest (service : StoppingService) : Prop :=
  (∀ id, service.step (.rpc id) = none) ∧ service.step .resume = none ∧ service.step .goOn = none

/-! ## What a step can do -/

/-- What the thread of an RPC does away from its handler: what becomes of the thread, who has the
mutex then, and what the counter is. -/
inductive Moves (service : StoppingService) (id : ℕ) (thread : RpcThread) :
    ServiceAction → RpcThread → Option RpcParty → ℕ → Prop
  | count (absent : thread.phase = .absent) :
      Moves service id thread (.rpc id) { phase := .arrived, counted := true } service.rpcing
        (service.numRpcRemaining + 1)
  | lock (ready : thread.phase = .arrived ∨ thread.phase = .woken)
      (free : service.rpcing = none) :
      Moves service id thread (.rpc id) { thread with phase := .locked } (some (.rpc id))
        service.numRpcRemaining
  | suspend (locked : thread.phase = .locked) (paused : service.paused = true) :
      Moves service id thread (.rpc id) { thread with phase := .suspending } service.rpcing
        service.numRpcRemaining
  | wait (suspending : thread.phase = .suspending) :
      Moves service id thread (.rpc id) { thread with phase := .waiting } none
        service.numRpcRemaining
  | finish (handling : thread.phase = .handling) :
      Moves service id thread (.rpc id) { thread with phase := .leaving } none
        service.numRpcRemaining
  | uncount (leaving : thread.phase = .leaving) (counted : thread.counted = true) :
      Moves service id thread (.rpc id) { thread with counted := false } service.rpcing
        (service.numRpcRemaining - 1)
  | wake (waiting : thread.phase = .waiting) :
      Moves service id thread (.wake id) { thread with phase := .woken } service.rpcing
        service.numRpcRemaining

/-- What `stop` does away from its notification: the phase it goes to, and who has the mutex
then. -/
inductive Halts (service : StoppingService) :
    ServiceAction → ShutdownPhase → Option RpcParty → Prop
  | lock (ready : service.stopping = .locking ∨ service.stopping = .woken)
      (free : service.rpcing = none) : Halts service .goOn .checking (some .stop)
  | pass (checking : service.stopping = .checking) (none : service.numRpcRemaining = 0) :
      Halts service .goOn .closing service.rpcing
  | suspend (checking : service.stopping = .checking) (some : service.numRpcRemaining ≠ 0) :
      Halts service .goOn .suspending service.rpcing
  | wait (suspending : service.stopping = .suspending) : Halts service .goOn .waiting none
  | wake (waiting : service.stopping = .waiting) : Halts service .wakeStop .woken service.rpcing
  | close (closing : service.stopping = .closing) : Halts service .goOn .shutting service.rpcing
  | finish (shutting : service.stopping = .shutting)
      (all : ∀ thread ∈ service.threads, thread.phase = .done) :
      Halts service .goOn .returned none

/-- What a step does. -/
inductive Steps (before : StoppingService) : ServiceAction → StoppingService → Prop
  | accept (accepts : before.stopping.Accepts) :
      Steps before .accept { before with threads := before.threads ++ [{}] }
  | moves {id : ℕ} {thread later : RpcThread} {rpcing : Option RpcParty} {numRpcRemaining : ℕ}
      {action : ServiceAction} (present : before.threads[id]? = some thread)
      (moves : Moves before id thread action later rpcing numRpcRemaining) :
      Steps before action { before.move id later with rpcing, numRpcRemaining }
  | call {id : ℕ} {thread : RpcThread} (present : before.threads[id]? = some thread)
      (locked : thread.phase = .locked) (clear : before.paused = false) :
      Steps before (.rpc id)
        { before.move id { thread with phase := .handling } with
          called := before.called ++ [id] }
  | leave {id : ℕ} {thread : RpcThread} (present : before.threads[id]? = some thread)
      (leaving : thread.phase = .leaving) (uncounted : thread.counted = false) :
      Steps before (.rpc id) (before.move id { thread with phase := .done }).notifyAll
  | pause (outside : before.transforming = .outside) :
      Steps before .pause { before with paused := true, transforming := .changing }
  | clear (changing : before.transforming = .changing) :
      Steps before .resume { before with paused := false, transforming := .notifying }
  | notify (notifying : before.transforming = .notifying) :
      Steps before .resume { before with transforming := .outside }.notifyAll
  | stop (outside : before.stopping = .outside) :
      Steps before .stop { before with paused := false, stopping := .notifying }
  | stopNotify (notifying : before.stopping = .notifying) :
      Steps before .goOn { before with stopping := .locking }.notifyAll
  | halts {phase : ShutdownPhase} {rpcing : Option RpcParty} {action : ServiceAction}
      (halts : Halts before action phase rpcing) :
      Steps before action { before with stopping := phase, rpcing }

theorem goRpc_cases {before after : StoppingService} {id : ℕ} {thread : RpcThread}
    (present : before.threads[id]? = some thread)
    (taken : before.goRpc id thread = some after) : Steps before (.rpc id) after := by
  unfold goRpc at taken
  split at taken
  next absent =>
    obtain rfl := Option.some.inj taken
    exact .moves present (.count absent)
  next arrived =>
    obtain ⟨free, rfl⟩ := Execution.guarded_eq_some.mp taken
    exact .moves present (.lock (.inl arrived) free)
  next woken =>
    obtain ⟨free, rfl⟩ := Execution.guarded_eq_some.mp taken
    exact .moves present (.lock (.inr woken) free)
  next locked =>
    split_ifs at taken with paused
    · obtain rfl := Option.some.inj taken
      exact .moves present (.suspend locked paused)
    · obtain rfl := Option.some.inj taken
      exact .call present locked (by simpa using paused)
  next suspending =>
    obtain rfl := Option.some.inj taken
    exact .moves present (.wait suspending)
  next handling =>
    obtain rfl := Option.some.inj taken
    exact .moves present (.finish handling)
  next leaving =>
    split_ifs at taken with counted
    · obtain rfl := Option.some.inj taken
      exact .moves present (.uncount leaving counted)
    · obtain rfl := Option.some.inj taken
      exact .leave present leaving (by simpa using counted)
  next => cases taken
  next => cases taken

theorem goStop_cases {before after : StoppingService} (taken : before.goStop = some after) :
    Steps before .goOn after := by
  unfold goStop at taken
  split at taken
  next notifying =>
    obtain rfl := Option.some.inj taken
    exact .stopNotify notifying
  next locking =>
    obtain ⟨free, rfl⟩ := Execution.guarded_eq_some.mp taken
    exact .halts (.lock (.inl locking) free)
  next woken =>
    obtain ⟨free, rfl⟩ := Execution.guarded_eq_some.mp taken
    exact .halts (.lock (.inr woken) free)
  next checking =>
    obtain rfl := Option.some.inj taken
    split_ifs with none
    · exact .halts (.pass checking none)
    · exact .halts (.suspend checking none)
  next suspending =>
    obtain rfl := Option.some.inj taken
    exact .halts (.wait suspending)
  next closing =>
    obtain rfl := Option.some.inj taken
    exact .halts (.close closing)
  next shutting =>
    obtain ⟨all, rfl⟩ := Execution.guarded_eq_some.mp taken
    exact .halts (.finish shutting all)
  next => cases taken
  next => cases taken
  next => cases taken

theorem step_cases {before after : StoppingService} {action : ServiceAction}
    (taken : before.step action = some after) : Steps before action after := by
  cases action with
  | accept =>
      obtain ⟨accepts, rfl⟩ := Execution.guarded_eq_some.mp taken
      exact .accept accepts
  | rpc id =>
      obtain ⟨thread, present, taken⟩ := Option.bind_eq_some_iff.mp taken
      exact goRpc_cases present taken
  | wake id =>
      obtain ⟨thread, present, taken⟩ := Option.bind_eq_some_iff.mp taken
      obtain ⟨waiting, rfl⟩ := Execution.guarded_eq_some.mp taken
      exact .moves present (.wake waiting)
  | pause =>
      obtain ⟨outside, rfl⟩ := Execution.guarded_eq_some.mp taken
      exact .pause outside
  | resume =>
      simp only [step] at taken
      split at taken
      next changing =>
        obtain rfl := Option.some.inj taken
        exact .clear changing
      next notifying =>
        obtain rfl := Option.some.inj taken
        exact .notify notifying
      next => cases taken
  | stop =>
      obtain ⟨outside, rfl⟩ := Execution.guarded_eq_some.mp taken
      exact .stop outside
  | goOn => exact goStop_cases taken
  | wakeStop =>
      obtain ⟨waiting, rfl⟩ := Execution.guarded_eq_some.mp taken
      exact .halts (.wake waiting)

end StoppingService

end Quintet
