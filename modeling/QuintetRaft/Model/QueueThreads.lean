import Mathlib.Logic.Function.Basic
import QuintetRaft.Model.EventQueue

/-!
# The threads of an event queue

`EventQueue.cpp` step by step: the threads that add events, those that run `execute`, and one call
of `stop`.  Locking the mutex, an operation on the queue and the test of a predicate are one step
each.  A wait can end at any time, since condition variables wake up spuriously, so that
notifications make no difference to what can happen.  Events are named by the calls of `addEvent`
that add them.
-/

namespace Quintet

/-- How far a call of `addEvent` is. -/
inductive AddPhase
  | notCalled
  /-- It waits for the mutex. -/
  | locking
  | pushing
  /-- The event is in the queue, and the mutex is still held. -/
  | unlocking
  | returned
  deriving DecidableEq, Repr

/-- How far a thread is in `execute`. -/
inductive ExecutePhase
  | locking
  /-- Before a test of the predicate, with the mutex. -/
  | testing
  /-- The predicate is false, and the wait begins: here the thread can be interrupted. -/
  | waiting
  /-- In the wait, without the mutex. -/
  | blocked
  /-- The wait is over, and the mutex is to be locked again. -/
  | relocking
  /-- With the mutex again: here the thread can be interrupted, too. -/
  | awake
  /-- The predicate is true. -/
  | popping
  | unlocking (call : Nat)
  /-- Without the mutex, before the event. -/
  | calling (call : Nat)
  /-- In the event. -/
  | running (call : Nat)
  /-- The thread has returned, or has not been created. -/
  | ended
  deriving DecidableEq, Repr

/-- The thread holds the mutex. -/
def ExecutePhase.Locks : ExecutePhase → Prop
  | .testing | .waiting | .awake | .popping | .unlocking _ => True
  | _ => False

/-- The event that the thread has taken and not begun. -/
def ExecutePhase.taken : ExecutePhase → List Nat
  | .unlocking call | .calling call => [call]
  | _ => []

/-- The event that the thread is in. -/
def ExecutePhase.current : ExecutePhase → List Nat
  | .running call => [call]
  | _ => []

/-- How far the call of `stop` is. -/
inductive QueueStopPhase
  | notCalled
  /-- Before the assignment in `resume`. -/
  | resuming
  /-- In `wait`, as in `execute`. -/
  | locking | testing | waiting | blocked | unlocking
  | interrupting
  | joining
  | returned
  deriving DecidableEq, Repr

/-- `stop` holds the mutex. -/
def QueueStopPhase.Locks : QueueStopPhase → Prop
  | .testing | .waiting | .unlocking => True
  | _ => False

/-- `wait` has found the queue empty. -/
def QueueStopPhase.Drained : QueueStopPhase → Prop
  | .unlocking | .interrupting | .joining | .returned => True
  | _ => False

/-- Who holds the mutex. -/
inductive QueueOwner
  | addEvent (call : Nat)
  | execute (thread : Nat)
  | stop
  deriving DecidableEq, Repr

/-- The queue and its threads. -/
structure QueueThreads where
  /-- The events that have not been taken, and the flag `paused`. -/
  queue : EventQueue Nat := {}
  /-- Who holds `m`. -/
  m : Option QueueOwner := none
  calls : Nat → AddPhase := fun _ => .notCalled
  threads : Nat → ExecutePhase := fun _ => .ended
  /-- How many threads have been created. -/
  created : Nat := 0
  /-- The thread of the handle `runningThread`, if it is joinable. -/
  runningThread : Option Nat := none
  /-- The threads that `interrupt` has been called for. -/
  interrupted : Nat → Bool := fun _ => false
  stop : QueueStopPhase := .notCalled
  /-- History: the calls of `addEvent` in the order in which they have locked the mutex. -/
  added : List Nat := []
  /-- History: the events that have been taken from the queue. -/
  popped : List Nat := []
  /-- History: the events that have begun. -/
  begun : List Nat := []
  /-- History: the events that have finished. -/
  finished : List Nat := []
  /-- History: the calls of `addEvent` that had returned when `stop` was called. -/
  addedBefore : Nat → Bool := fun _ => false

/-- What can happen next. -/
inductive QueueAction
  /-- `addEvent` is called. -/
  | callAddEvent (call : Nat)
  /-- A call of `addEvent` goes on. -/
  | addEvent (call : Nat)
  /-- A thread in `execute` goes on. -/
  | execute (thread : Nat)
  /-- The wait of a thread is over. -/
  | wakeExecute (thread : Nat)
  | pause
  | resume
  | start
  | callStop
  /-- The call of `stop` goes on. -/
  | stop
  /-- The wait of the call of `stop` is over. -/
  | wakeStop
  deriving DecidableEq, Repr

namespace QueueThreads

/-- A thread goes on to another phase. -/
def setThread (thread : Nat) (phase : ExecutePhase) (state : QueueThreads) : QueueThreads :=
  { state with threads := Function.update state.threads thread phase }

/-- `start`: a new thread, unless the handle is joinable.  The handle has no lock, so that calls of
`start` do not overlap, and the test and the assignment are one step. -/
def start (state : QueueThreads) : QueueThreads :=
  if state.runningThread.isSome then state
  else
    { state.setThread state.created .locking with
      created := state.created + 1
      runningThread := some state.created }

/-- The constructor starts a thread. -/
def init : QueueThreads := start {}

/-- The next step of a call of `addEvent`. -/
def stepAddEvent (call : Nat) (state : QueueThreads) : Option QueueThreads :=
  match state.calls call with
  | .locking =>
      if state.m = none then
        some
          { state with
            m := some (.addEvent call)
            calls := Function.update state.calls call .pushing
            added := state.added ++ [call] }
      else none
  | .pushing =>
      some
        { state with
          queue := state.queue.addEvent call
          calls := Function.update state.calls call .unlocking }
  | .unlocking =>
      some { state with m := none, calls := Function.update state.calls call .returned }
  | .notCalled | .returned => none

/-- The next step of a thread in `execute`. -/
def stepExecute (thread : Nat) (state : QueueThreads) : Option QueueThreads :=
  match state.threads thread with
  | .locking =>
      if state.m = none then
        some { state.setThread thread .testing with m := some (.execute thread) }
      else none
  | .testing =>
      some (state.setThread thread (if state.queue.next.isSome then .popping else .waiting))
  | .waiting =>
      some
        { state.setThread thread (if state.interrupted thread then .ended else .blocked) with
          m := none }
  | .blocked => none
  | .relocking =>
      if state.m = none then
        some { state.setThread thread .awake with m := some (.execute thread) }
      else none
  | .awake =>
      if state.interrupted thread then some { state.setThread thread .ended with m := none }
      else some (state.setThread thread .testing)
  | .popping =>
      match state.queue.q with
      | [] => none
      | call :: rest =>
          some
            { state.setThread thread (.unlocking call) with
              queue := { state.queue with q := rest }
              popped := state.popped ++ [call] }
  | .unlocking call => some { state.setThread thread (.calling call) with m := none }
  | .calling call =>
      some { state.setThread thread (.running call) with begun := state.begun ++ [call] }
  | .running call =>
      some { state.setThread thread .locking with finished := state.finished ++ [call] }
  | .ended => none

/-- The next step of `stop`. -/
def stepStop (state : QueueThreads) : Option QueueThreads :=
  match state.stop with
  | .resuming => some { state with queue := state.queue.resume, stop := .locking }
  | .locking =>
      if state.m = none then some { state with m := some .stop, stop := .testing } else none
  | .testing =>
      some { state with stop := if state.queue.q.isEmpty then .unlocking else .waiting }
  | .waiting => some { state with m := none, stop := .blocked }
  | .unlocking => some { state with m := none, stop := .interrupting }
  | .interrupting =>
      match state.runningThread with
      | none => some { state with stop := .joining }
      | some thread =>
          some
            { state with
              interrupted := Function.update state.interrupted thread true
              stop := .joining }
  | .joining =>
      if ∀ thread ∈ state.runningThread, state.threads thread = .ended then
        some { state with runningThread := none, stop := .returned }
      else none
  | .notCalled | .blocked | .returned => none

/-- One step; nothing when it cannot be taken. -/
def step (state : QueueThreads) : QueueAction → Option QueueThreads
  | .callAddEvent call =>
      if state.calls call = .notCalled then
        some { state with calls := Function.update state.calls call .locking }
      else none
  | .addEvent call => state.stepAddEvent call
  | .execute thread => state.stepExecute thread
  | .wakeExecute thread =>
      if state.threads thread = .blocked then some (state.setThread thread .relocking) else none
  | .pause => some { state with queue := { state.queue with paused := true } }
  | .resume => some { state with queue := state.queue.resume }
  | .start => some state.start
  | .callStop =>
      if state.stop = .notCalled then
        some
          { state with
            stop := .resuming
            addedBefore := fun call => decide (state.calls call = .returned) }
      else none
  | .stop => state.stepStop
  | .wakeStop =>
      if state.stop = .blocked then some { state with stop := .locking } else none

end QueueThreads

end Quintet
