import QuintetRaft.Safety.StopStages

/-!
# Stopping is final

Once the transformation to `Down` has been executed the server stays down, as long as no thread is
in `notify` when `stop` triggers that transformation, and none passes the gate of `notify` later.
What is queued behind it is executed too: `EventQueue::stop` waits for an empty queue, and the
thread of the queue tests for events before it notices that it has been interrupted.
-/

namespace Quintet

namespace Stopping

open Server

variable {info : ServerInfo} {stopping before after : Stopping} {action : StopAction}
  {behind : List (ServerIdentityNo × Nat)}

/-! ## Runs -/

/-- After the transformation to `Down` the identity stays `Down` and no `init` runs; when `stop` has
returned the server is down and no thread that an identity starts is left. -/
structure StaysDown (before : Stopping) (action : StopAction) (after : Stopping) : Prop where
  /-- The identity does not change again. -/
  identity : before.downExecuted = true → after.server.identity = .down
  /-- No identity is initialised again. -/
  init : before.downExecuted = true → action = .queue →
    ∀ target, before.executing ≠ .initializing target
  /-- `stop` leaves nothing behind. -/
  returned : after.stop = .returned → after.server.identity = .down ∧ after.timer = none ∧
    after.server.Cleared ∧ after.notifying = none

/-- A thread is between the gate of `notify` and the event queue when `stop` triggers the
transformation to `Down`, or a request passes the gate after that. -/
def Overtakes (info : ServerInfo) (before : Stopping) (action : StopAction) : Prop :=
  before.stop = .triggering ∧ action = .stop ∧ before.notifying ≠ none ∨
    before.stop.Triggered ∧
      ∃ request ∈ before.notice info action, before.server.accepts request.2

/-- After the transformation to `Down` has been triggered nobody is in `notify`. -/
def Settled (stopping : Stopping) : Prop := stopping.stop.Triggered → stopping.notifying = none

@[simp] theorem cut_stop : (before.cut info action after).stop = after.stop := by
  unfold cut
  split <;> rfl

@[simp] theorem cut_downExecuted :
    (before.cut info action after).downExecuted = after.downExecuted := by
  unfold cut
  split <;> rfl

/-- Only `stop` itself goes on with `stop`. -/
theorem stop_step (taken : before.step info action = some after) (other : action ≠ .stop) :
    after.stop = before.stop := by
  cases action with
  | push =>
      obtain ⟨called, -, rfl⟩ := step_push.mp taken
      rfl
  | queue =>
      obtain ⟨-, whole, moved, rfl⟩ := (step_eq_some (by simp)).mp taken
      rw [cut_stop]
      cases stepQueue_cases moved with
      | enter initializes => exact init_stop
      | _ => rfl
  | stop => exact absurd rfl other
  | _ =>
      obtain ⟨-, whole, moved, rfl⟩ := (step_eq_some (by simp)).mp taken
      obtain ⟨server, timer, -, rfl⟩ := background moved (by simp)
      exact cut_stop

/-- What has been executed stays so. -/
theorem downExecuted_step (taken : before.step info action = some after)
    (executed : before.downExecuted = true) : after.downExecuted = true := by
  cases action with
  | push =>
      obtain ⟨called, -, rfl⟩ := step_push.mp taken
      exact executed
  | queue =>
      obtain ⟨-, whole, moved, rfl⟩ := (step_eq_some (by simp)).mp taken
      rw [cut_downExecuted]
      cases stepQueue_cases moved with
      | assign assigns => simp [executed]
      | enter initializes => exact init_downExecuted.trans executed
      | _ => exact executed
  | stop =>
      obtain ⟨-, whole, moved, rfl⟩ := (step_eq_some (by simp)).mp taken
      rw [cut_downExecuted]
      exact (stepStop_cases moved).frame.2.2.1.trans executed
  | _ =>
      obtain ⟨-, whole, moved, rfl⟩ := (step_eq_some (by simp)).mp taken
      obtain ⟨server, timer, -, rfl⟩ := background moved (by simp)
      rw [cut_downExecuted]
      exact executed

/-- As long as nothing overtakes the transformation to `Down`, the server stays down. -/
theorem Consistent.staysDown (consistent : before.Consistent [])
    (taken : before.step info action = some after) (kept : after.Consistent [])
    (manned : after.Manned) : StaysDown before action after where
  identity executed := by
    cases kept.stage with
    | down triggered returned queue regular rests isDown executed => exact isDown
    | ahead _ _ _ _ _ fresh => simp [downExecuted_step taken executed] at fresh
    | queued _ _ _ _ _ _ _ _ fresh => simp [downExecuted_step taken executed] at fresh
    | leaving _ _ _ _ _ fresh => simp [downExecuted_step taken executed] at fresh
  init executed _ target initializes := by
    cases consistent.stage with
    | down triggered returned queue regular rests isDown executed => simp [initializes] at rests
    | ahead _ _ _ _ _ fresh => simp [executed] at fresh
    | queued _ _ _ _ _ _ _ _ fresh => simp [executed] at fresh
    | leaving _ _ _ _ _ fresh => simp [executed] at fresh
  returned ended := by
    cases kept.stage with
    | down triggered returned queue regular rests isDown executed =>
        exact ⟨isDown, kept.timer isDown, kept.tidy.cleared (by rw [isDown]; decide),
          manned.nobody isDown⟩
    | ahead untriggered =>
        rw [ended] at untriggered
        exact absurd trivial untriggered
    | queued _ _ drains => exact nomatch drains.symm.trans ended
    | leaving _ waits => exact absurd ended waits

/-- Something is queued behind the transformation to `Down`, or about to be, or about to be assigned
after it. -/
inductive Doomed (stopping : Stopping) : Prop
  | queued (behind : List (ServerIdentityNo × Nat)) (some : behind ≠ [])
      (consistent : stopping.Consistent behind) (manned : stopping.Manned)
  | notifying (consistent : stopping.Consistent []) (manned : stopping.Manned)
      (triggered : stopping.stop.Triggered) (called : stopping.notifying ≠ none)
  | overtaken (overtaken : stopping.Overtaken)

/-- It is executed before `stop` returns. -/
theorem Doomed.not_returned (doomed : stopping.Doomed) : stopping.stop ≠ .returned := by
  cases doomed with
  | queued behind some consistent manned =>
      intro ended
      cases consistent.stage with
      | ahead untriggered nothing => exact some nothing
      | queued _ _ drains => exact nomatch drains.symm.trans ended
      | leaving _ waits => exact waits ended
      | down triggered returned queue regular rests isDown executed =>
          simp [returned ended, some] at rests
  | notifying consistent manned triggered called =>
      intro ended
      cases consistent.stage with
      | ahead untriggered => exact untriggered triggered
      | queued _ _ drains => exact nomatch drains.symm.trans ended
      | leaving _ waits => exact waits ended
      | down _ _ _ _ _ isDown _ => exact called (manned.nobody isDown)
  | overtaken overtaken => exact overtaken.waits

/-- Nothing but the assignment itself gets the event queue away from there. -/
theorem Overtaken.step (overtaken : before.Overtaken)
    (taken : before.step info action = some after) (holds : StaysDown before action after) :
    after.Overtaken := by
  obtain ⟨executed, waits, target, regular, assigns⟩ := overtaken
  cases action with
  | push =>
      obtain ⟨called, -, rfl⟩ := step_push.mp taken
      exact ⟨executed, waits, target, regular, assigns⟩
  | queue =>
      have assigned : after.server.identity = target := by
        obtain ⟨-, whole, moved, rfl⟩ := (step_eq_some (by simp)).mp taken
        rw [cut_queue (by simp [assigns])]
        simp only [stepAtOnce, stepQueue, assigns] at moved
        cases moved
        rfl
      exact absurd (assigned.symm.trans (holds.identity executed)) regular.ne_down
  | stop =>
      obtain ⟨-, whole, moved, rfl⟩ := (step_eq_some (by simp)).mp taken
      rw [cut_of_silent rfl]
      obtain ⟨-, executing, downExecuted, -⟩ := (stepStop_cases moved).frame
      refine ⟨downExecuted.trans executed, fun ended => ?_, target, regular,
        executing.trans assigns⟩
      have finished := (stepStop_cases moved).ended ended
      rw [assigns] at finished
      cases finished
  | _ =>
      obtain ⟨-, whole, moved, rfl⟩ := (step_eq_some (by simp)).mp taken
      obtain ⟨server, timer, background, rfl⟩ := background moved (by simp)
      obtain ⟨server', timer', notifying, -, same⟩ := background.moves
      rw [same]
      exact ⟨executed, waits, target, regular, assigns⟩

/-- Only the thread in `notify` itself gets through it. -/
theorem notifying_step (taken : before.step info action = some after) (other : action ≠ .push)
    (called : before.notifying ≠ none) : after.notifying ≠ none := by
  obtain ⟨-, whole, moved, rfl⟩ := (step_eq_some other).mp taken
  have kept : whole.notifying = before.notifying := by
    cases action with
    | queue =>
        cases stepQueue_cases moved with
        | enter initializes => exact init_notifying
        | _ => rfl
    | stop => exact (stepStop_cases moved).frame.2.2.2.1
    | _ =>
        obtain ⟨server, timer, -, rfl⟩ := background moved (by simp)
        rfl
  unfold cut
  split
  · rwa [kept]
  · exact Option.some_ne_none _

/-- `stop` never takes back the transformation to `Down`. -/
theorem triggered_step (taken : before.step info action = some after)
    (triggered : before.stop.Triggered) : after.stop.Triggered := by
  by_cases stops : action = .stop
  · subst stops
    obtain ⟨-, whole, moved, rfl⟩ := (step_eq_some (by simp)).mp taken
    rw [cut_of_silent rfl]
    cases stepStop_cases moved with
    | call phase | stopRpc phase | trigger phase =>
        rw [phase] at triggered
        exact triggered.elim
    | drain | interrupt | join => trivial
  · rwa [stop_step taken stops]

theorem Doomed.step (doomed : before.Doomed) (taken : before.step info action = some after)
    (holds : StaysDown before action after) : after.Doomed := by
  cases doomed with
  | queued behind some consistent manned =>
      rcases consistent.step manned taken with kept | ⟨-, overtaken⟩
      · exact .queued _ (List.append_ne_nil_of_left_ne_nil some _) kept
          (manned.step consistent taken)
      · exact .overtaken overtaken
  | notifying consistent manned triggered called =>
      rcases consistent.step manned taken with kept | ⟨nothing, -⟩
      · by_cases pushes : action = .push
        · subst pushes
          obtain ⟨request, calls⟩ := Option.ne_none_iff_exists'.mp called
          refine .queued _ ?_ kept (manned.step consistent taken)
          simp [added, triggered, calls]
        · rw [added_of_ne pushes, List.append_nil] at kept
          exact .notifying kept (manned.step consistent taken) (triggered_step taken triggered)
            (notifying_step taken pushes called)
      · exact absurd rfl nothing
  | overtaken overtaken => exact .overtaken (overtaken.step taken holds)

/-- Along a run in which nothing is overtaken. -/
structure Calm (stopping : Stopping) : Prop where
  /-- Nothing is queued behind the transformation to `Down`. -/
  consistent : stopping.Consistent []
  /-- A thread in `notify` is waited for. -/
  manned : stopping.Manned
  /-- None will queue anything behind the transformation to `Down`. -/
  settled : stopping.Settled

theorem Calm.added_eq_nil (calm : before.Calm) : before.added action = [] := by
  cases action with
  | push =>
      by_cases triggered : before.stop.Triggered
      · simp [added, calm.settled triggered]
      · simp [added, triggered]
  | _ => rfl

/-- What is called past the gate of `notify`. -/
theorem notifying_eq (taken : before.step info action = some after) (free : before.notifying = none)
    (called : after.notifying ≠ none) :
    ∃ request ∈ before.notice info action, before.server.accepts request.2 := by
  by_cases pushes : action = .push
  · subst pushes
    obtain ⟨_, calls, -⟩ := step_push.mp taken
    rw [free] at calls
    cases calls
  obtain ⟨-, whole, moved, rfl⟩ := (step_eq_some pushes).mp taken
  cases passes : (before.notice info action).filter fun request =>
    before.server.accepts request.2 with
  | some request =>
      obtain ⟨asked, opens⟩ := Option.mem_filter_iff.mp (Option.mem_def.mpr passes)
      exact ⟨request, asked, by simpa using opens⟩
  | none =>
      refine absurd ?_ called
      simp only [cut, passes]
      rw [← free]
      cases action with
      | push => exact absurd rfl pushes
      | queue =>
          cases stepQueue_cases moved with
          | enter initializes => exact init_notifying
          | _ => rfl
      | stop => exact (stepStop_cases moved).frame.2.2.2.1
      | _ =>
          obtain ⟨server, timer, -, rfl⟩ := background moved (by simp)
          rfl

theorem Calm.step (calm : before.Calm) (taken : before.step info action = some after)
    (guard : ¬ Overtakes info before action) : after.Calm where
  consistent := by
    rcases calm.consistent.step calm.manned taken with kept | ⟨nothing, -⟩
    · rwa [calm.added_eq_nil] at kept
    · exact absurd rfl nothing
  manned := calm.manned.step calm.consistent taken
  settled triggered := by
    by_contra called
    by_cases before' : before.stop.Triggered
    · exact guard (.inr ⟨before', notifying_eq taken (calm.settled before') called⟩)
    · -- `stop` has just triggered the transformation
      have stops : action = .stop := by
        by_contra other
        exact before' (stop_step taken other ▸ triggered)
      subst stops
      obtain ⟨-, whole, moved, rfl⟩ := (step_eq_some (by simp)).mp taken
      rw [cut_of_silent rfl] at triggered called
      cases stepStop_cases moved with
      | trigger triggers => exact guard (.inl ⟨triggers, rfl, called⟩)
      | call phase | stopRpc phase => exact triggered
      | drain phase | interrupt phase | join phase =>
          rw [phase] at before'
          exact before' trivial

theorem Calm.doomed_of_overtakes (calm : before.Calm)
    (taken : before.step info action = some after) (overtakes : Overtakes info before action) :
    after.Doomed := by
  have kept : after.Consistent [] := by
    rcases calm.consistent.step calm.manned taken with kept | ⟨nothing, -⟩
    · rwa [calm.added_eq_nil] at kept
    · exact absurd rfl nothing
  have manned := calm.manned.step calm.consistent taken
  rcases overtakes with ⟨triggers, rfl, called⟩ | ⟨triggered, request, asked, opens⟩
  · refine .notifying kept manned ?_ (notifying_step taken (by simp) called)
    obtain ⟨-, whole, moved, rfl⟩ := (step_eq_some (by simp)).mp taken
    rw [cut_of_silent rfl]
    cases stepStop_cases moved with
    | trigger => trivial
    | call phase | stopRpc phase | drain phase | interrupt phase | join phase =>
        exact nomatch triggers.symm.trans phase
  · have pushes : action ≠ .push := by
      rintro rfl
      cases asked
    refine .notifying kept manned (triggered_step taken triggered) ?_
    obtain ⟨-, whole, moved, rfl⟩ := (step_eq_some pushes).mp taken
    have passes : (before.notice info action).filter (fun request =>
        before.server.accepts request.2) = some request :=
      Option.mem_filter_iff.mpr ⟨asked, by simpa using opens⟩
    simp [cut, passes]

/-- A run in which `stop` returns, and the server stays down, has overtaken nothing. -/
theorem guarded_of_staysDown {actions : List StopAction} {start final : Stopping}
    (calm : start.Calm) (holds : Execution.Along (step info) StaysDown actions start)
    (execution : Execution.run (step info) actions start = some final)
    (ended : final.stop = .returned) :
    Execution.Along (step info) (fun before action _ => ¬ Overtakes info before action) actions
      start := by
  induction actions generalizing start with
  | nil => trivial
  | cons action actions ih =>
      obtain ⟨after, taken, later⟩ := Option.bind_eq_some_iff.mp execution
      obtain ⟨stays, rest⟩ := (Execution.along_cons taken).mp holds
      refine (Execution.along_cons taken).mpr ?_
      have guard : ¬ Overtakes info start action := by
        intro overtakes
        have doomed : final.Doomed := Execution.invariant_of_along
          (fun _ _ _ doomed taken holds => Doomed.step doomed taken holds)
          (calm.doomed_of_overtakes taken overtakes) rest later
        exact doomed.not_returned ended
      exact ⟨guard, ih (calm.step taken guard) rest later⟩

/-- Stopping is final as long as nobody is between the gate of `notify` and the event queue when
`stop` triggers the transformation to `Down`, and nothing passes the gate later; in a run in which
`stop` returns it is final in no other case. -/
theorem staysDown_iff (info : ServerInfo) (state : ServerState) (actions : List StopAction) :
    (Execution.Along (step info) (fun before action _ => ¬ Overtakes info before action) actions
        (configured state) →
      Execution.Along (step info) StaysDown actions (configured state)) ∧
    ∀ final ∈ Execution.run (step info) actions (configured state), final.stop = .returned →
      (Execution.Along (step info) StaysDown actions (configured state) ↔
        Execution.Along (step info) (fun before action _ => ¬ Overtakes info before action) actions
          (configured state)) := by
  have start : (configured state).Calm :=
    ⟨consistent_configured state, manned_configured state, fun _ => rfl⟩
  have enough :
      Execution.Along (step info) (fun before action _ => ¬ Overtakes info before action) actions
        (configured state) →
      Execution.Along (step info) StaysDown actions (configured state) := by
    refine Execution.along_of_invariant
      (fun (before : Stopping) action after (calm : before.Calm) taken guard => ?_) start
    have kept := calm.step taken guard
    exact ⟨kept, calm.consistent.staysDown taken kept.consistent kept.manned⟩
  exact ⟨enough, fun final execution ended =>
    ⟨fun holds => guarded_of_staysDown start holds execution ended, enough⟩⟩

/-- The election timer fires between the triggering of the transformation to `Down` and its
execution. -/
def lateTimeout : List StopAction :=
  [.asyncRun, .queue, .queue, .queue, .stop, .stop, .stop, .readTerm, .timeout, .push, .queue,
    .queue, .queue, .queue, .queue, .queue, .queue, .stop, .stop, .queue, .stop]

/-- Two servers, seen from the first one. -/
def pair : ServerInfo where
  localId := { addr := "localhost", port := 1 }
  srvList := [{ addr := "localhost", port := 1 }, { addr := "localhost", port := 2 }]

/-- In the end `stop` has returned, and the server is a candidate with its timer and its vote
request running. -/
theorem staysDown_counterexample :
    (∃ final ∈ Execution.run (step pair) lateTimeout (configured {}),
      final.stop = .returned ∧ final.downExecuted = true ∧ final.server.identity = .candidate ∧
        final.timer = some (.sleeping .election) ∧ final.server.candidate.requests ≠ []) ∧
    ¬ Execution.Along (step pair) StaysDown lateTimeout (configured {}) := by
  have runs : ∃ final ∈ Execution.run (step pair) lateTimeout (configured {}),
      final.stop = .returned ∧ final.downExecuted = true ∧ final.server.identity = .candidate ∧
        final.timer = some (.sleeping .election) ∧ final.server.candidate.requests ≠ [] := by
    decide +kernel
  refine ⟨runs, fun holds => ?_⟩
  obtain ⟨final, execution, ended, -, candidate, -⟩ := runs
  have down : final.stop = .returned → final.server.identity = .down :=
    Execution.invariant_of_along
      (fun _ _ after (_ : _ → _) _ (stays : StaysDown _ _ after) ended => (stays.returned ended).1)
      (fun _ => rfl) holds execution
  exact nomatch candidate.symm.trans (down ended)

end Stopping

end Quintet
