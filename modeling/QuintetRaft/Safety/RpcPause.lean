import Mathlib.Data.List.Nodup
import QuintetRaft.Model.RpcService

/-!
# Identity changes and RPC handlers

No handler runs while `transform` changes the identity, and every RPC is handled once, as long as
`pause` does not set the flag while a handler runs and no RPC goes to sleep after the last
notification.  `pause` and `resume` take no mutex, so both happen.
-/

namespace Quintet

namespace RpcPhase

@[simp] theorem notify_hasMutex (phase : RpcPhase) : phase.notify.HasMutex ↔ phase.HasMutex := by
  cases phase <;> simp [notify, HasMutex]

@[simp] theorem notify_called (phase : RpcPhase) : phase.notify.Called ↔ phase.Called := by
  cases phase <;> simp [notify, Called]

theorem notify_ne_waiting (phase : RpcPhase) : phase.notify ≠ .waiting := by
  cases phase <;> simp [notify]

@[simp] theorem notify_eq_handling {phase : RpcPhase} :
    phase.notify = .handling ↔ phase = .handling := by
  cases phase <;> simp [notify]

end RpcPhase

namespace RpcService

variable {Rpc : Type} {service before after : RpcService Rpc} {action : RpcAction Rpc} {id : Rpc}

/-! ## The threads and what they share -/

/-- What the flag, the mutex and the history say about the threads. -/
structure Consistent (service : RpcService Rpc) : Prop where
  /-- The flag is set while the identity changes. -/
  flag : service.paused = true ↔ service.transforming = .changing
  /-- One RPC has the mutex. -/
  mutex : ∀ id, (service.rpcs id).HasMutex ↔ service.rpcing = some id
  /-- The history holds the RPCs whose handlers have been called. -/
  history : ∀ id, id ∈ service.called ↔ (service.rpcs id).Called
  /-- No handler has been called twice. -/
  once : service.called.Nodup

theorem consistent_init : Consistent ({} : RpcService Rpc) where
  flag := by simp
  mutex := by simp [RpcPhase.HasMutex]
  history := by simp [RpcPhase.Called]
  once := List.nodup_nil

theorem Consistent.notifyAll (consistent : service.Consistent) : service.notifyAll.Consistent where
  flag := consistent.flag
  mutex other := (RpcPhase.notify_hasMutex _).trans (consistent.mutex other)
  history other := (consistent.history other).trans (RpcPhase.notify_called _).symm
  once := consistent.once

variable [DecidableEq Rpc]

/-- An RPC goes on whose handler is not called in the step. -/
theorem Consistent.move (consistent : service.Consistent) {phase : RpcPhase} {rpcing : Option Rpc}
    (own : phase.HasMutex ↔ rpcing = some id)
    (others : ∀ other, other ≠ id → (service.rpcing = some other ↔ rpcing = some other))
    (same : (service.rpcs id).Called ↔ phase.Called) :
    { service.move id phase with rpcing }.Consistent where
  flag := consistent.flag
  mutex := (Function.forall_update_iff service.rpcs
    fun other phase => phase.HasMutex ↔ rpcing = some other).mpr
      ⟨own, fun other apart => (consistent.mutex other).trans (others other apart)⟩
  history := (Function.forall_update_iff service.rpcs
    fun other phase => other ∈ service.called ↔ phase.Called).mpr
      ⟨(consistent.history id).trans same, fun other _ => consistent.history other⟩
  once := consistent.once

/-- An RPC goes on whose handler is called in the step. -/
theorem Consistent.call (consistent : service.Consistent) (locked : service.rpcs id = .locked) :
    { service.move id .handling with called := service.called ++ [id] }.Consistent where
  flag := consistent.flag
  mutex := (Function.forall_update_iff service.rpcs
    fun other phase => phase.HasMutex ↔ service.rpcing = some other).mpr
      ⟨by rw [← consistent.mutex id, locked]; exact Iff.rfl, fun other _ => consistent.mutex other⟩
  history := (Function.forall_update_iff service.rpcs
    fun other phase => other ∈ service.called ++ [id] ↔ phase.Called).mpr
      ⟨by simp [RpcPhase.Called], fun other apart => by
        simpa [apart] using consistent.history other⟩
  once := by
    refine List.nodup_append.mpr ⟨consistent.once, List.nodup_singleton id, ?_⟩
    rintro other called _ single rfl
    rw [List.mem_singleton.mp single, consistent.history, locked] at called
    exact called

/-- An RPC that keeps the mutex, or keeps going without it. -/
theorem Consistent.go (consistent : service.Consistent) {phase : RpcPhase}
    (mutex : (service.rpcs id).HasMutex ↔ phase.HasMutex)
    (same : (service.rpcs id).Called ↔ phase.Called) : (service.move id phase).Consistent :=
  consistent.move (mutex.symm.trans (consistent.mutex id)) (fun _ _ => Iff.rfl) same

/-- An RPC that releases the mutex. -/
theorem Consistent.unlock (consistent : service.Consistent) {phase : RpcPhase}
    (had : (service.rpcs id).HasMutex) (gone : ¬ phase.HasMutex)
    (same : (service.rpcs id).Called ↔ phase.Called) :
    { service.move id phase with rpcing := none }.Consistent := by
  refine consistent.move (iff_of_false gone (by simp)) (fun other apart => ?_) same
  rw [(consistent.mutex id).mp had]
  simp [apart.symm]

theorem Consistent.moves (consistent : service.Consistent) {phase : RpcPhase}
    {rpcing : Option Rpc} (moves : Moves service id action phase rpcing) :
    { service.move id phase with rpcing }.Consistent := by
  cases moves with
  | arrive absent => exact consistent.go (by rw [absent]; rfl) (by rw [absent]; rfl)
  | lock ready free =>
      refine consistent.move (iff_of_true trivial rfl) (fun other apart => ?_) ?_
      · simp [free, apart.symm]
      · rcases ready with arrived | woken
        · rw [arrived]; rfl
        · rw [woken]; rfl
  | suspend locked paused => exact consistent.go (by rw [locked]; rfl) (by rw [locked]; rfl)
  | wait suspending =>
      exact consistent.unlock (by rw [suspending]; trivial) (by simp [RpcPhase.HasMutex])
        (by rw [suspending]; rfl)
  | wake waiting => exact consistent.go (by rw [waiting]; rfl) (by rw [waiting]; rfl)
  | finish handling =>
      exact consistent.unlock (by rw [handling]; trivial) (by simp [RpcPhase.HasMutex])
        (by rw [handling]; rfl)

theorem Consistent.step (consistent : before.Consistent)
    (taken : before.step action = some after) : after.Consistent := by
  cases step_cases taken with
  | moves moves => exact consistent.moves moves
  | call locked clear => exact consistent.call locked
  | leave leaving =>
      exact (consistent.go (by rw [leaving]; rfl) (by rw [leaving]; rfl)).notifyAll
  | pause outside => exact { consistent with flag := iff_of_true rfl rfl }
  | clear changing => exact { consistent with flag := by simp }
  | notify notifying =>
      have flag := consistent.flag
      rw [notifying] at flag
      have cleared : { before with transforming := TransformPhase.outside }.Consistent :=
        { consistent with flag := flag.trans (by simp) }
      exact cleared.notifyAll

/-! ## Handlers and identity changes -/

/-- No handler runs while the identity changes. -/
def Excludes (service : RpcService Rpc) : Prop :=
  service.transforming = .changing → ∀ id, service.rpcs id ≠ .handling

/-- `pause` sets the flag while a handler runs. -/
def HandlesAtPause (before : RpcService Rpc) (action : RpcAction Rpc) : Prop :=
  action = .pause ∧ ∃ id, before.rpcs id = .handling

/-- A step breaks the exclusion exactly when it sets the flag while a handler runs. -/
theorem excludes_step_iff (consistent : before.Consistent) (excludes : before.Excludes)
    (taken : before.step action = some after) :
    after.Excludes ↔ ¬ HandlesAtPause before action := by
  have moved : ∀ id phase, phase ≠ .handling → (before.move id phase).Excludes :=
    fun id phase idle changing => (Function.forall_update_iff before.rpcs
      fun _ phase => phase ≠ .handling).mpr ⟨idle, fun other _ => excludes changing other⟩
  cases step_cases taken with
  | @moves id action phase rpcing moves =>
      exact iff_of_true (moved id phase moves.quiet.1) fun handles => moves.quiet.2 handles.1
  | call locked clear =>
      refine iff_of_true (fun changing => ?_) (by simp [HandlesAtPause])
      exact absurd (consistent.flag.mpr changing) (by simp [clear])
  | @leave id leaving =>
      refine iff_of_true (fun changing other handling => ?_) (by simp [HandlesAtPause])
      exact moved id .done (by decide) changing other (RpcPhase.notify_eq_handling.mp handling)
  | pause outside => simp [Excludes, HandlesAtPause]
  | clear changing => exact iff_of_true (fun other => nomatch other) (by simp [HandlesAtPause])
  | notify notifying => exact iff_of_true (fun other => nomatch other) (by simp [HandlesAtPause])

/-! ## Every RPC is answered -/

/-- An RPC waits, and nothing that happens by itself will wake it up. -/
structure Stuck (service : RpcService Rpc) : Prop where
  /-- The identity does not change. -/
  outside : service.transforming = .outside
  /-- No RPC goes on by itself. -/
  resting : ∀ id, (service.rpcs id).Resting
  /-- One of them waits. -/
  waits : ∃ id, service.rpcs id = .waiting

/-- An RPC goes to sleep when the flag is clear, the others rest too, and no notification is on its
way. -/
def LosesWakeup (before : RpcService Rpc) (action : RpcAction Rpc) : Prop :=
  ∃ id, action = .wait id ∧ before.transforming = .outside ∧
    ∀ other, other ≠ id → (before.rpcs other).Resting

omit [DecidableEq Rpc] in
theorem not_stuck_notifyAll : ¬ service.notifyAll.Stuck := fun stuck =>
  stuck.waits.elim fun _ waits => RpcPhase.notify_ne_waiting _ waits

/-- A step gets an RPC stuck exactly when it loses a wakeup. -/
theorem stuck_step_iff (taken : before.step action = some after) :
    after.Stuck ↔ LosesWakeup before action := by
  cases step_cases taken with
  | @moves id action phase rpcing moves =>
      have goes := move_self id phase before
      by_cases rests : phase.Resting
      · obtain ⟨rfl, rfl⟩ := moves.resting rests
        constructor
        · intro stuck
          refine ⟨id, rfl, stuck.outside, fun other apart => ?_⟩
          rw [← move_of_ne apart .waiting before]
          exact stuck.resting other
        · rintro ⟨_, ⟨⟩, outside, others⟩
          exact ⟨outside, (Function.forall_update_iff before.rpcs
            fun _ phase => phase.Resting).mpr ⟨rests, others⟩, id, goes⟩
      · refine iff_of_false (fun stuck => rests (goes ▸ stuck.resting id)) ?_
        rintro ⟨other, rfl, -⟩
        cases moves
        exact rests trivial
  | @call id locked clear =>
      refine iff_of_false (fun stuck => ?_) (by simp [LosesWakeup])
      have rests := stuck.resting id
      rw [show _ = RpcPhase.handling from move_self id .handling before] at rests
      exact rests
  | leave leaving => exact iff_of_false not_stuck_notifyAll (by simp [LosesWakeup])
  | pause outside =>
      exact iff_of_false (fun stuck => nomatch stuck.outside) (by simp [LosesWakeup])
  | clear changing =>
      exact iff_of_false (fun stuck => nomatch stuck.outside) (by simp [LosesWakeup])
  | notify notifying => exact iff_of_false not_stuck_notifyAll (by simp [LosesWakeup])

/-- An RPC that has the mutex goes on. -/
theorem not_atRest_of_hasMutex (has : (service.rpcs id).HasMutex) : ¬ service.AtRest := by
  intro atRest
  cases phase : service.rpcs id with
  | locked => exact absurd (atRest (.readPaused id) trivial) (by simp [step, phase])
  | suspending => exact absurd (atRest (.wait id) trivial) (by simp [step, phase])
  | handling => exact absurd (atRest (.finish id) trivial) (by simp [step, phase])
  | _ => simp [phase, RpcPhase.HasMutex] at has

/-- Nothing goes on by itself when the identity does not change and every RPC rests. -/
theorem atRest_of_resting (outside : service.transforming = .outside)
    (resting : ∀ id, (service.rpcs id).Resting) : service.AtRest := by
  intro action internal
  have rests : ∀ id phase, ¬ phase.Resting → service.rpcs id ≠ phase :=
    fun id phase goes same => goes (same ▸ resting id)
  have goes : ¬ RpcPhase.arrived.Resting ∧ ¬ RpcPhase.woken.Resting ∧
      ¬ RpcPhase.locked.Resting ∧ ¬ RpcPhase.suspending.Resting ∧
      ¬ RpcPhase.handling.Resting ∧ ¬ RpcPhase.leaving.Resting := by
    simp [RpcPhase.Resting]
  obtain ⟨arrived, woken, locked, suspending, handling, leaving⟩ := goes
  cases action with
  | arrive id => exact internal.elim
  | wake id => exact internal.elim
  | pause => exact internal.elim
  | lock id => simp [step, rests id _ arrived, rests id _ woken]
  | readPaused id => simp [step, rests id _ locked]
  | wait id => simp [step, rests id _ suspending]
  | finish id => simp [step, rests id _ handling]
  | leave id => simp [step, rests id _ leaving]
  | clear => simp [step, outside]
  | notify => simp [step, outside]

/-- Nothing goes on by itself exactly when the identity does not change and every RPC rests. -/
theorem atRest_iff (consistent : service.Consistent) :
    service.AtRest ↔ service.transforming = .outside ∧ ∀ id, (service.rpcs id).Resting := by
  constructor
  · intro atRest
    have free : service.rpcing = none := by
      by_contra taken
      obtain ⟨id, holds⟩ := Option.ne_none_iff_exists'.mp taken
      exact not_atRest_of_hasMutex ((consistent.mutex id).mpr holds) atRest
    refine ⟨?_, fun id => ?_⟩
    · cases phase : service.transforming with
      | outside => rfl
      | changing => exact absurd (atRest .clear trivial) (by simp [step, phase])
      | notifying => exact absurd (atRest .notify trivial) (by simp [step, phase])
    · cases phase : service.rpcs id with
      | absent => trivial
      | waiting => trivial
      | done => trivial
      | arrived => exact absurd (atRest (.lock id) trivial) (by simp [step, phase, free])
      | woken => exact absurd (atRest (.lock id) trivial) (by simp [step, phase, free])
      | leaving => exact absurd (atRest (.leave id) trivial) (by simp [step, phase])
      | _ =>
          exact absurd atRest (not_atRest_of_hasMutex (by rw [phase]; trivial))
  · exact fun ⟨outside, resting⟩ => atRest_of_resting outside resting

/-! ## Runs -/

/-- No handler runs while the identity changes, none is called twice, and when nothing goes on by
itself the handlers of all RPCs that have arrived have been called. -/
structure ServesRpcs (service : RpcService Rpc) : Prop where
  /-- Identity changes exclude handlers. -/
  excludes : service.Excludes
  /-- An RPC is handled at most once. -/
  once : service.called.Nodup
  /-- It is handled in the end. -/
  served : service.AtRest → ∀ id, service.rpcs id ≠ .absent → id ∈ service.called

/-- Away from these two faults the service is in order. -/
theorem servesRpcs_iff_of_consistent (consistent : service.Consistent) :
    service.ServesRpcs ↔ service.Excludes ∧ ¬ service.Stuck := by
  constructor
  · rintro ⟨excludes, -, served⟩
    refine ⟨excludes, fun ⟨outside, resting, id, waits⟩ => ?_⟩
    have called := served ((atRest_iff consistent).mpr ⟨outside, resting⟩) id (by simp [waits])
    rw [consistent.history, waits] at called
    exact called
  · rintro ⟨excludes, free⟩
    refine ⟨excludes, consistent.once, fun atRest id present => ?_⟩
    obtain ⟨outside, resting⟩ := (atRest_iff consistent).mp atRest
    have rests := resting id
    rw [consistent.history]
    cases phase : service.rpcs id with
    | absent => exact absurd phase present
    | waiting => exact absurd ⟨outside, resting, id, phase⟩ free
    | done => trivial
    | _ => simp [phase, RpcPhase.Resting] at rests

/-- Along a run identity changes exclude the handlers, and every RPC is handled once, exactly when
`pause` never sets the flag while a handler runs and no RPC loses its wakeup. -/
theorem servesRpcs_iff (actions : List (RpcAction Rpc)) :
    Execution.Along step (fun _ _ after => after.ServesRpcs) actions ({} : RpcService Rpc) ↔
      Execution.Along step
        (fun before action _ => ¬ HandlesAtPause before action ∧ ¬ LosesWakeup before action)
        actions {} := by
  refine Execution.along_congr_of_invariant
    (fun before action after (kept : before.Consistent ∧ before.Excludes) taken => ?_)
    (fun before action after kept taken guard => ?_) ⟨consistent_init, fun _ _ => by simp⟩
  · rw [servesRpcs_iff_of_consistent (kept.1.step taken), excludes_step_iff kept.1 kept.2 taken,
      stuck_step_iff taken]
  · exact ⟨kept.1.step taken, (excludes_step_iff kept.1 kept.2 taken).mpr guard.1⟩

/-- An RPC has passed its wait when the flag is set. -/
def handlerAtPause : List (RpcAction Unit) := [.arrive (), .lock (), .readPaused (), .pause]

/-- An RPC has found the flag set, and goes to sleep when it has been cleared. -/
def lostWakeup : List (RpcAction Unit) :=
  [.pause, .arrive (), .lock (), .readPaused (), .clear, .notify, .wait ()]

/-- In the first run a handler runs while the identity changes; in the second one an RPC sleeps for
ever. -/
theorem servesRpcs_counterexample :
    (∃ final ∈ Execution.run step handlerAtPause ({} : RpcService Unit),
      final.transforming = .changing ∧ final.rpcs () = .handling ∧ ¬ final.ServesRpcs) ∧
    ∃ final ∈ Execution.run step lostWakeup ({} : RpcService Unit),
      final.AtRest ∧ final.rpcs () = .waiting ∧ final.called = [] ∧ ¬ final.ServesRpcs := by
  refine ⟨?_, ?_⟩
  · have runs : ∃ final ∈ Execution.run step handlerAtPause ({} : RpcService Unit),
        final.transforming = .changing ∧ final.rpcs () = .handling := by
      decide
    obtain ⟨final, execution, changing, handling⟩ := runs
    exact ⟨final, execution, changing, handling, fun serves =>
      serves.excludes changing () handling⟩
  · have sleeps : ∃ final ∈ Execution.run step lostWakeup ({} : RpcService Unit),
        final.transforming = .outside ∧ final.rpcs () = .waiting ∧ final.called = [] := by
      decide
    obtain ⟨final, execution, outside, waits, none⟩ := sleeps
    have atRest : final.AtRest := atRest_of_resting outside fun _ => by rw [waits]; trivial
    refine ⟨final, execution, atRest, waits, none, fun serves => ?_⟩
    have called := serves.served atRest () (by simp [waits])
    simp [none] at called

end RpcService

end Quintet
