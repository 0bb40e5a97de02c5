import Mathlib.Logic.Function.Basic
import QuintetRaft.Library.Execution

/-!
# Pausing the RPCs

`RpcService.cpp` and the part of `Raft::Impl::transform` that uses it.  The three bound functions
run alike: they take the mutex `rpcing`, wait on the condition variable until the flag `paused` is
not set, run the handler and release the mutex.  `transform` sets the flag, leaves one identity and
initialises another, clears the flag and notifies; it never takes the mutex.
-/

namespace Quintet

/-- How far an RPC is. -/
inductive RpcPhase
  /-- It has not arrived. -/
  | absent
  /-- It has passed `preRpc` and is about to take the mutex. -/
  | arrived
  /-- It has the mutex and is about to read the flag. -/
  | locked
  /-- It has found the flag set and is about to wait. -/
  | suspending
  /-- It waits on the condition variable, without the mutex. -/
  | waiting
  /-- It has been woken up and is about to take the mutex again. -/
  | woken
  /-- It has found the flag clear; its handler runs. -/
  | handling
  /-- It has released the mutex and is about to notify the others. -/
  | leaving
  /-- It has been answered. -/
  | done
  deriving DecidableEq, Repr

namespace RpcPhase

/-- The RPC has the mutex. -/
def HasMutex : RpcPhase → Prop
  | .locked | .suspending | .handling => True
  | _ => False

/-- Its handler has been called. -/
def Called : RpcPhase → Prop
  | .handling | .leaving | .done => True
  | _ => False

/-- Only another thread can make the RPC go on. -/
def Resting : RpcPhase → Prop
  | .absent | .waiting | .done => True
  | _ => False

/-- What `notify_all` does to an RPC. -/
def notify : RpcPhase → RpcPhase
  | .waiting => .woken
  | phase => phase

end RpcPhase

/-- How far `transform` is. -/
inductive TransformPhase
  /-- It does not run. -/
  | outside
  /-- `pause` has returned and `resume` has not been called. -/
  | changing
  /-- `resume` has cleared the flag and is about to notify. -/
  | notifying
  deriving DecidableEq, Repr

/-- `RpcService::Impl` with the threads that use it. -/
structure RpcService (Rpc : Type) where
  /-- The flag. -/
  paused : Bool := false
  /-- The RPC that has the mutex. -/
  rpcing : Option Rpc := none
  /-- The RPCs. -/
  rpcs : Rpc → RpcPhase := fun _ => .absent
  /-- The thread of the event queue. -/
  transforming : TransformPhase := .outside
  /-- History: the RPCs whose handlers have been called, oldest first. -/
  called : List Rpc := []

/-- One lock acquisition, read or write. -/
inductive RpcAction (Rpc : Type)
  /-- An RPC arrives. -/
  | arrive (id : Rpc)
  /-- It takes the mutex. -/
  | lock (id : Rpc)
  /-- It reads the flag. -/
  | readPaused (id : Rpc)
  /-- It releases the mutex and waits, in one step. -/
  | wait (id : Rpc)
  /-- It wakes up although nobody has notified it. -/
  | wake (id : Rpc)
  /-- Its handler returns and it releases the mutex. -/
  | finish (id : Rpc)
  /-- It notifies the others. -/
  | leave (id : Rpc)
  /-- `pause`. -/
  | pause
  /-- `resume` clears the flag. -/
  | clear
  /-- It notifies all RPCs. -/
  | notify
  deriving DecidableEq

namespace RpcAction

/-- A thread that has been started goes on; this does not depend on the environment. -/
def Internal {Rpc : Type} : RpcAction Rpc → Prop
  | .arrive _ | .wake _ | .pause => False
  | _ => True

end RpcAction

namespace RpcService

variable {Rpc : Type}

/-- `cv.notify_all()`. -/
def notifyAll (service : RpcService Rpc) : RpcService Rpc :=
  { service with rpcs := fun id => (service.rpcs id).notify }

variable [DecidableEq Rpc]

/-- One RPC goes on to another phase. -/
def move (id : Rpc) (phase : RpcPhase) (service : RpcService Rpc) : RpcService Rpc :=
  { service with rpcs := Function.update service.rpcs id phase }

theorem move_self (id : Rpc) (phase : RpcPhase) (service : RpcService Rpc) :
    (service.move id phase).rpcs id = phase := Function.update_self ..

theorem move_of_ne {id other : Rpc} (apart : other ≠ id) (phase : RpcPhase)
    (service : RpcService Rpc) : (service.move id phase).rpcs other = service.rpcs other :=
  Function.update_of_ne apart ..

/-- One step of a thread. -/
def step (service : RpcService Rpc) : RpcAction Rpc → Option (RpcService Rpc)
  | .arrive id =>
      if service.rpcs id = .absent then some (service.move id .arrived) else none
  | .lock id =>
      if (service.rpcs id = .arrived ∨ service.rpcs id = .woken) ∧ service.rpcing = none then
        some { service.move id .locked with rpcing := some id }
      else none
  | .readPaused id =>
      if service.rpcs id = .locked then
        some (if service.paused then service.move id .suspending
          else { service.move id .handling with called := service.called ++ [id] })
      else none
  | .wait id =>
      if service.rpcs id = .suspending then
        some { service.move id .waiting with rpcing := none }
      else none
  | .wake id =>
      if service.rpcs id = .waiting then some (service.move id .woken) else none
  | .finish id =>
      if service.rpcs id = .handling then
        some { service.move id .leaving with rpcing := none }
      else none
  | .leave id =>
      if service.rpcs id = .leaving then some (service.move id .done).notifyAll else none
  | .pause =>
      if service.transforming = .outside then
        some { service with paused := true, transforming := .changing }
      else none
  | .clear =>
      if service.transforming = .changing then
        some { service with paused := false, transforming := .notifying }
      else none
  | .notify =>
      if service.transforming = .notifying then
        some { service with transforming := .outside }.notifyAll
      else none

/-- No thread can go on by itself. -/
def AtRest (service : RpcService Rpc) : Prop :=
  ∀ action, RpcAction.Internal action → service.step action = none

/-! ## What a step can do -/

/-- What an RPC does before and after its handler: the phase it goes to, and who has the mutex
then. -/
inductive Moves (service : RpcService Rpc) (id : Rpc) :
    RpcAction Rpc → RpcPhase → Option Rpc → Prop
  | arrive (absent : service.rpcs id = .absent) :
      Moves service id (.arrive id) .arrived service.rpcing
  | lock (ready : service.rpcs id = .arrived ∨ service.rpcs id = .woken)
      (free : service.rpcing = none) : Moves service id (.lock id) .locked (some id)
  | suspend (locked : service.rpcs id = .locked) (paused : service.paused = true) :
      Moves service id (.readPaused id) .suspending service.rpcing
  | wait (suspending : service.rpcs id = .suspending) : Moves service id (.wait id) .waiting none
  | wake (waiting : service.rpcs id = .waiting) :
      Moves service id (.wake id) .woken service.rpcing
  | finish (handling : service.rpcs id = .handling) : Moves service id (.finish id) .leaving none

omit [DecidableEq Rpc] in
theorem Moves.quiet {service : RpcService Rpc} {id : Rpc} {action : RpcAction Rpc}
    {phase : RpcPhase} {rpcing : Option Rpc} (moves : Moves service id action phase rpcing) :
    phase ≠ .handling ∧ action ≠ .pause := by
  cases moves <;> simp

omit [DecidableEq Rpc] in
/-- Only waiting stops an RPC. -/
theorem Moves.resting {service : RpcService Rpc} {id : Rpc} {action : RpcAction Rpc}
    {phase : RpcPhase} {rpcing : Option Rpc} (moves : Moves service id action phase rpcing)
    (rests : phase.Resting) : action = .wait id ∧ phase = .waiting := by
  cases moves with
  | wait suspending => exact ⟨rfl, rfl⟩
  | _ => exact rests.elim

/-- What a step does. -/
inductive Steps (before : RpcService Rpc) : RpcAction Rpc → RpcService Rpc → Prop
  | moves {id : Rpc} {action : RpcAction Rpc} {phase : RpcPhase} {rpcing : Option Rpc}
      (moves : Moves before id action phase rpcing) :
      Steps before action { before.move id phase with rpcing }
  | call {id : Rpc} (locked : before.rpcs id = .locked) (clear : before.paused = false) :
      Steps before (.readPaused id)
        { before.move id .handling with called := before.called ++ [id] }
  | leave {id : Rpc} (leaving : before.rpcs id = .leaving) :
      Steps before (.leave id) (before.move id .done).notifyAll
  | pause (outside : before.transforming = .outside) :
      Steps before .pause { before with paused := true, transforming := .changing }
  | clear (changing : before.transforming = .changing) :
      Steps before .clear { before with paused := false, transforming := .notifying }
  | notify (notifying : before.transforming = .notifying) :
      Steps before .notify { before with transforming := .outside }.notifyAll

theorem step_cases {before after : RpcService Rpc} {action : RpcAction Rpc}
    (taken : before.step action = some after) : Steps before action after := by
  cases action with
  | arrive id =>
      obtain ⟨absent, rfl⟩ := Execution.guarded_eq_some.mp taken
      exact .moves (.arrive absent)
  | lock id =>
      obtain ⟨⟨ready, free⟩, rfl⟩ := Execution.guarded_eq_some.mp taken
      exact .moves (.lock ready free)
  | readPaused id =>
      obtain ⟨locked, rfl⟩ := Execution.guarded_eq_some.mp taken
      split_ifs with paused
      · exact .moves (.suspend locked paused)
      · exact .call locked (by simpa using paused)
  | wait id =>
      obtain ⟨suspending, rfl⟩ := Execution.guarded_eq_some.mp taken
      exact .moves (.wait suspending)
  | wake id =>
      obtain ⟨waiting, rfl⟩ := Execution.guarded_eq_some.mp taken
      exact .moves (.wake waiting)
  | finish id =>
      obtain ⟨handling, rfl⟩ := Execution.guarded_eq_some.mp taken
      exact .moves (.finish handling)
  | leave id =>
      obtain ⟨leaving, rfl⟩ := Execution.guarded_eq_some.mp taken
      exact .leave leaving
  | pause =>
      obtain ⟨outside, rfl⟩ := Execution.guarded_eq_some.mp taken
      exact .pause outside
  | clear =>
      obtain ⟨changing, rfl⟩ := Execution.guarded_eq_some.mp taken
      exact .clear changing
  | notify =>
      obtain ⟨notifying, rfl⟩ := Execution.guarded_eq_some.mp taken
      exact .notify notifying

end RpcService

end Quintet
