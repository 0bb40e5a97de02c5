import QuintetRaft.Library.Execution

/-!
# The heartbeat controller

`HeartBeatController.cpp`: one thread that calls the bound function after a period, once or again
and again.  The mutex belongs to the closure of the thread, which gives it back at some time between
the return of the thread's function and its join; the handle stays joinable until the join.
-/

namespace Quintet

/-- Where the thread's function is. -/
inductive BeatPhase
  /-- Before the test of `immediate`. -/
  | starting
  /-- In `sleep_for`, where it can be interrupted. -/
  | sleeping
  /-- In the bound function. -/
  | firing
  /-- It has returned. -/
  | finished
  deriving DecidableEq, Repr

/-- A thread and what its closure has captured. -/
structure Beat (F : Type) where
  immediate : Bool
  repeats : Bool
  period : Nat
  func : Option F
  /-- `interrupt` has been called. -/
  interrupted : Bool := false
  /-- How far it is. -/
  phase : BeatPhase := .starting
  deriving DecidableEq, Repr

/-- The assertions of `start`. -/
inductive BeatAssertion
  /-- `assert(period)`. -/
  | period
  /-- `assert(!th.joinable())`. -/
  | notJoinable
  deriving DecidableEq, Repr

/-- Where the thread that makes the calls is. -/
inductive BeatCaller
  /-- Outside the calls. -/
  | idle
  /-- In the join of `stop`, which may be the one that `restart` calls. -/
  | joining (restarts : Bool)
  deriving DecidableEq, Repr

/-- `HeartBeatController`, and the thread that calls it. -/
structure HeartBeatController (F : Type) where
  /-- The mutex `m` is locked. -/
  locked : Bool := false
  func : Option F := none
  /-- The thread of the handle, if the handle is joinable. -/
  th : Option (Beat F) := none
  period : Nat := 0
  immediateCache : Bool := false
  repeatCache : Bool := false
  /-- Where the caller is. -/
  caller : BeatCaller := .idle
  /-- The assertion that has failed. -/
  failure : Option BeatAssertion := none
  /-- What the last call of `start` has returned. -/
  returned : Option Bool := none
  /-- History: the parameters of the last `start` that succeeded. -/
  lastStart : Option (Bool × Bool) := none
  deriving DecidableEq, Repr

/-- Calls of the controller and steps of its thread. -/
inductive BeatEvent (F : Type)
  | bind (periodMs : Nat) (f : F)
  | start (immediate repeats : Bool)
  | stop
  | restart
  /-- The join in `stop` returns; `restart` goes on to call `start`. -/
  | joined
  /-- The thread tests `immediate`. -/
  | begin
  /-- The period is over. -/
  | awake
  /-- The bound function returns. -/
  | fired
  /-- The sleep is interrupted. -/
  | interrupted
  /-- The closure of the thread unlocks the mutex. -/
  | release
  deriving DecidableEq, Repr

namespace HeartBeatController

variable {F : Type}

/-- `bind`. -/
def bind (periodMs : Nat) (f : F) (controller : HeartBeatController F) : HeartBeatController F :=
  { controller with func := some f, period := periodMs }

/-- `start`; the parameters are cached before the second assertion. -/
def start (immediate repeats : Bool) (controller : HeartBeatController F) :
    HeartBeatController F :=
  if controller.period = 0 then { controller with failure := some .period }
  else if controller.locked then { controller with returned := some false }
  else if controller.th.isSome then
    { controller with
      immediateCache := immediate
      repeatCache := repeats
      failure := some .notJoinable }
  else
    { controller with
      immediateCache := immediate
      repeatCache := repeats
      locked := true
      th := some { immediate, repeats, period := controller.period, func := controller.func }
      returned := some true
      lastStart := some (immediate, repeats) }

/-- `stop` interrupts the thread and begins to join it. -/
def stop (restarts : Bool) (controller : HeartBeatController F) : HeartBeatController F :=
  { controller with
    th := controller.th.map fun beat => { beat with interrupted := true }
    caller := .joining restarts }

/-- The thread is gone, and its closure with it. -/
def joined (controller : HeartBeatController F) : HeartBeatController F :=
  { controller with th := none, locked := false, caller := .idle }

/-- The thread's function goes on, if it can. -/
def advance (enabled : Beat F → Bool) (phase : Beat F → BeatPhase)
    (controller : HeartBeatController F) : Option (HeartBeatController F) :=
  match controller.th with
  | none => none
  | some beat =>
      if enabled beat then some { controller with th := some { beat with phase := phase beat } }
      else none

/-- One event; nothing when it cannot happen.  Without a joinable handle `stop` does nothing. -/
def step (controller : HeartBeatController F) (event : BeatEvent F) :
    Option (HeartBeatController F) :=
  if controller.failure.isSome then none
  else
    match event with
    | .bind periodMs f =>
        if controller.caller = .idle then some (controller.bind periodMs f) else none
    | .start immediate repeats =>
        if controller.caller = .idle then some (controller.start immediate repeats) else none
    | .stop => if controller.caller = .idle then some (controller.stop false) else none
    | .restart => if controller.caller = .idle then some (controller.stop true) else none
    | .joined =>
        if ∀ beat ∈ controller.th, beat.phase = .finished then
          match controller.caller with
          | .idle => none
          | .joining false => some controller.joined
          | .joining true =>
              some (controller.joined.start controller.immediateCache controller.repeatCache)
        else none
    | .begin =>
        controller.advance (·.phase = .starting) fun beat =>
          if beat.immediate then .firing else .sleeping
    | .awake => controller.advance (·.phase = .sleeping) fun _ => .firing
    | .fired =>
        controller.advance (·.phase = .firing) fun beat =>
          if beat.repeats then .sleeping else .finished
    | .interrupted =>
        controller.advance (fun beat => beat.phase = .sleeping && beat.interrupted) fun _ =>
          .finished
    | .release =>
        if ∃ beat ∈ controller.th, beat.phase = .finished then
          some { controller with locked := false }
        else none

end HeartBeatController

end Quintet
