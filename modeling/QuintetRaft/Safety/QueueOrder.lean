import Mathlib.Data.List.Nodup
import QuintetRaft.Library.Execution
import QuintetRaft.Library.Mutex
import QuintetRaft.Model.QueueThreads

/-!
# The events of an event queue

However the threads are interleaved, the events begin in the order in which they have been added,
one after the other, and `stop` does not return before those added earlier have finished.
-/

namespace Quintet

open Mutex

/-- A thread goes on without taking an event, beginning it or finishing it. -/
structure ExecutePhase.Follows (earlier later : ExecutePhase) : Prop where
  alive : earlier ≠ .ended
  taken : later.taken = earlier.taken
  current : later.current = earlier.current

/-- A thread is in one event at most. -/
theorem ExecutePhase.current_cases (phase : ExecutePhase) :
    phase.current = [] ∨ ∃ call, phase.current = [call] := by
  cases phase <;> simp [ExecutePhase.current]

namespace QueueThreads

variable {state before after : QueueThreads} {action : QueueAction} {thread call : Nat}

/-- What is promised about the events. -/
structure ExecutesInOrder (state : QueueThreads) : Prop where
  /-- Events begin in the order of their calls, and none is left out. -/
  order : state.begun <+: state.added
  /-- None begins twice. -/
  once : state.begun.Nodup
  /-- One event has finished before the next one begins. -/
  serial : state.begun = state.finished ∨ ∃ call, state.begun = state.finished ++ [call]
  /-- What had been added when `stop` was called has finished when it returns. -/
  drained : state.stop = .returned →
    ∀ call, state.addedBefore call = true → call ∈ state.finished
  /-- The queue has a front when a thread takes it. -/
  full : ∀ thread, state.threads thread = .popping → state.queue.q ≠ []

/-! ## What a step can do -/

/-- Who is in a section that the mutex guards. -/
def Holds (state : QueueThreads) : QueueOwner → Prop
  | .addEvent call => state.calls call = .pushing ∨ state.calls call = .unlocking
  | .execute thread => (state.threads thread).Locks
  | .stop => state.stop.Locks

/-- The steps by what they change. -/
inductive Moves (before : QueueThreads) : QueueThreads → Prop
  | callAddEvent (call : Nat) (phase : before.calls call = .notCalled) :
      Moves before { before with calls := Function.update before.calls call .locking }
  | lockAddEvent (call : Nat) (phase : before.calls call = .locking) (free : before.m = none) :
      Moves before
        { before with
          m := some (.addEvent call)
          calls := Function.update before.calls call .pushing
          added := before.added ++ [call] }
  | push (call : Nat) (phase : before.calls call = .pushing) :
      Moves before
        { before with
          queue := before.queue.addEvent call
          calls := Function.update before.calls call .unlocking }
  | unlockAddEvent (call : Nat) (phase : before.calls call = .unlocking) :
      Moves before
        { before with m := none, calls := Function.update before.calls call .returned }
  | execute (thread : Nat) (phase : ExecutePhase) (m : Option QueueOwner)
      (follows : (before.threads thread).Follows phase)
      (handover : Handover (.execute thread) before.m m (before.threads thread).Locks phase.Locks)
      (full : phase = .popping → before.queue.q ≠ []) :
      Moves before { before.setThread thread phase with m }
  | pop (thread call : Nat) (rest : List Nat) (phase : before.threads thread = .popping)
      (front : before.queue.q = call :: rest) :
      Moves before
        { before.setThread thread (.unlocking call) with
          queue := { before.queue with q := rest }
          popped := before.popped ++ [call] }
  | enter (thread call : Nat) (phase : before.threads thread = .calling call) :
      Moves before
        { before.setThread thread (.running call) with begun := before.begun ++ [call] }
  | finish (thread call : Nat) (phase : before.threads thread = .running call) :
      Moves before
        { before.setThread thread .locking with finished := before.finished ++ [call] }
  | setPaused (paused : Bool) : Moves before { before with queue := { before.queue with paused } }
  | start (free : before.runningThread = none) :
      Moves before
        { before.setThread before.created .locking with
          created := before.created + 1
          runningThread := some before.created }
  | callStop (phase : before.stop = .notCalled) :
      Moves before
        { before with
          stop := .resuming
          addedBefore := fun call => decide (before.calls call = .returned) }
  | stop (phase : QueueStopPhase) (m : Option QueueOwner) (paused : Bool) (interrupted : Nat → Bool)
      (handover : Handover .stop before.m m before.stop.Locks phase.Locks)
      (empty : phase.Drained → before.stop.Drained ∨ before.queue.q = [])
      (inside : phase ≠ .returned) :
      Moves before
        { before with
          queue := { before.queue with paused }
          m
          interrupted
          stop := phase }
  | join (phase : before.stop = .joining)
      (ended : ∀ thread ∈ before.runningThread, before.threads thread = .ended) :
      Moves before { before with runningThread := none, stop := .returned }
  | idle : Moves before before

theorem stepAddEvent_moves (taken : before.stepAddEvent call = some after) :
    before.Moves after := by
  unfold stepAddEvent at taken
  split at taken
  case h_1 phase =>
    obtain ⟨free, rfl⟩ := Execution.guarded_eq_some.mp taken
    exact .lockAddEvent call phase free
  case h_2 phase =>
    cases taken
    exact .push call phase
  case h_3 phase =>
    cases taken
    exact .unlockAddEvent call phase
  all_goals cases taken

/-- A thread goes on as it should. -/
theorem execute_moves {earlier phase : ExecutePhase} {m : Option QueueOwner}
    (is : before.threads thread = earlier) (follows : earlier.Follows phase)
    (handover : Handover (.execute thread) before.m m earlier.Locks phase.Locks)
    (full : phase = .popping → before.queue.q ≠ []) :
    before.Moves { before.setThread thread phase with m } := by
  subst is
  exact .execute thread phase m follows handover full

theorem stepExecute_moves (taken : before.stepExecute thread = some after) :
    before.Moves after := by
  unfold stepExecute at taken
  split at taken
  case h_1 phase =>
    obtain ⟨free, rfl⟩ := Execution.guarded_eq_some.mp taken
    exact execute_moves phase ⟨by simp, rfl, rfl⟩ (.lock free rfl) (by simp)
  case h_2 phase =>
    obtain rfl := Option.some.inj taken
    by_cases ready : before.queue.next.isSome
    · rw [if_pos ready]
      refine execute_moves phase ⟨by simp, rfl, rfl⟩ (.keep rfl fun _ => trivial) fun _ => ?_
      obtain ⟨⟨call, later⟩, next⟩ := Option.isSome_iff_exists.mp ready
      simp [(EventQueue.next_eq_some next).2.1]
    · rw [if_neg ready]
      exact execute_moves phase ⟨by simp, rfl, rfl⟩ (.keep rfl fun _ => trivial) (by simp)
  case h_3 phase =>
    obtain rfl := Option.some.inj taken
    split
    · exact execute_moves phase ⟨by simp, rfl, rfl⟩ (.unlock trivial id rfl) (by simp)
    · exact execute_moves phase ⟨by simp, rfl, rfl⟩ (.unlock trivial id rfl) (by simp)
  case h_5 phase =>
    obtain ⟨free, rfl⟩ := Execution.guarded_eq_some.mp taken
    exact execute_moves phase ⟨by simp, rfl, rfl⟩ (.lock free rfl) (by simp)
  case h_6 phase =>
    split at taken
    · obtain rfl := Option.some.inj taken
      exact execute_moves phase ⟨by simp, rfl, rfl⟩ (.unlock trivial id rfl) (by simp)
    · obtain rfl := Option.some.inj taken
      exact execute_moves phase ⟨by simp, rfl, rfl⟩ (.keep rfl fun _ => trivial) (by simp)
  case h_7 phase =>
    split at taken
    · cases taken
    · obtain rfl := Option.some.inj taken
      exact .pop thread _ _ phase ‹_›
  case h_8 call phase =>
    obtain rfl := Option.some.inj taken
    exact execute_moves phase ⟨by simp, rfl, rfl⟩ (.unlock trivial id rfl) (by simp)
  case h_9 call phase =>
    obtain rfl := Option.some.inj taken
    exact .enter thread call phase
  case h_10 call phase =>
    obtain rfl := Option.some.inj taken
    exact .finish thread call phase
  all_goals cases taken

theorem stop_moves {earlier phase : QueueStopPhase} {m : Option QueueOwner} (paused : Bool)
    (interrupted : Nat → Bool) (is : before.stop = earlier)
    (handover : Handover .stop before.m m earlier.Locks phase.Locks)
    (empty : phase.Drained → earlier.Drained ∨ before.queue.q = []) (inside : phase ≠ .returned) :
    before.Moves
      { before with queue := { before.queue with paused }, m, interrupted, stop := phase } := by
  subst is
  exact .stop phase m paused interrupted handover empty inside

theorem stepStop_moves (taken : before.stepStop = some after) : before.Moves after := by
  unfold stepStop at taken
  split at taken
  case h_1 phase =>
    obtain rfl := Option.some.inj taken
    exact stop_moves false _ phase (.keep rfl id) False.elim (by simp)
  case h_2 phase =>
    obtain ⟨free, rfl⟩ := Execution.guarded_eq_some.mp taken
    exact stop_moves _ _ phase (.lock free rfl) False.elim (by simp)
  case h_3 phase =>
    obtain rfl := Option.some.inj taken
    by_cases empty : before.queue.q = []
    · rw [if_pos (by simp [empty])]
      exact stop_moves _ _ phase (.keep rfl fun _ => trivial) (fun _ => .inr empty) (by simp)
    · rw [if_neg (by simp [empty])]
      exact stop_moves _ _ phase (.keep rfl fun _ => trivial) False.elim (by simp)
  case h_4 phase =>
    obtain rfl := Option.some.inj taken
    exact stop_moves _ _ phase (.unlock trivial id rfl) False.elim (by simp)
  case h_5 phase =>
    obtain rfl := Option.some.inj taken
    exact stop_moves _ _ phase (.unlock trivial id rfl) (fun _ => .inl trivial) (by simp)
  case h_6 phase =>
    split at taken
    · obtain rfl := Option.some.inj taken
      exact stop_moves _ _ phase (.keep rfl id) (fun _ => .inl trivial) (by simp)
    · obtain rfl := Option.some.inj taken
      exact stop_moves _ _ phase (.keep rfl id) (fun _ => .inl trivial) (by simp)
  case h_7 phase =>
    obtain ⟨ended, rfl⟩ := Execution.guarded_eq_some.mp taken
    exact .join phase ended
  all_goals cases taken

/-- Every step is one of them. -/
theorem step_moves (taken : before.step action = some after) : before.Moves after := by
  cases action with
  | callAddEvent call =>
      obtain ⟨phase, rfl⟩ := Execution.guarded_eq_some.mp taken
      exact .callAddEvent call phase
  | addEvent call => exact stepAddEvent_moves taken
  | execute thread => exact stepExecute_moves taken
  | wakeExecute thread =>
      obtain ⟨phase, rfl⟩ := Execution.guarded_eq_some.mp taken
      exact execute_moves phase ⟨by simp, rfl, rfl⟩ (.keep rfl id) (by simp)
  | pause =>
      obtain rfl := Option.some.inj taken
      exact .setPaused true
  | resume =>
      obtain rfl := Option.some.inj taken
      exact .setPaused false
  | start =>
      obtain rfl := Option.some.inj taken
      unfold start
      split_ifs with joinable
      · exact .idle
      · exact .start (by simpa using joinable)
  | callStop =>
      obtain ⟨phase, rfl⟩ := Execution.guarded_eq_some.mp taken
      exact .callStop phase
  | stop => exact stepStop_moves taken
  | wakeStop =>
      obtain ⟨phase, rfl⟩ := Execution.guarded_eq_some.mp taken
      exact stop_moves _ _ phase (.keep rfl id) False.elim (by simp)

/-! ## The mutex and the threads -/

/-- Who works under the mutex has it, only the thread of the handle is at work, and it takes no
event from an empty queue. -/
structure Exclusive (state : QueueThreads) : Prop where
  guards : Guards state.m state.Holds
  single : ∀ thread, state.threads thread ≠ .ended → state.runningThread = some thread
  full : ∀ thread, state.threads thread = .popping → state.queue.q ≠ []

/-- A call of `addEvent` keeps the others out. -/
theorem guards_addEvent {phase : AddPhase} (guards : Guards before.m before.Holds)
    (calls : after.calls = Function.update before.calls call phase)
    (threads : after.threads = before.threads) (stop : after.stop = before.stop)
    (passes : Handover (.addEvent call) before.m after.m (before.Holds (.addEvent call))
      (phase = .pushing ∨ phase = .unlocking)) : Guards after.m after.Holds := by
  refine guards.handover (.addEvent call) (by simpa [Holds, calls] using passes) ?_
  rintro (other | other | _) distinct holds
  · have differs : other ≠ call := fun same => distinct (by rw [same])
    simpa [Holds, calls, Function.update_of_ne differs] using holds
  · simpa [Holds, threads] using holds
  · simpa [Holds, stop] using holds

/-- A thread keeps the others out. -/
theorem guards_execute {phase : ExecutePhase} (guards : Guards before.m before.Holds)
    (calls : after.calls = before.calls)
    (threads : after.threads = Function.update before.threads thread phase)
    (stop : after.stop = before.stop)
    (passes : Handover (.execute thread) before.m after.m (before.threads thread).Locks
      phase.Locks) : Guards after.m after.Holds := by
  refine guards.handover (.execute thread) (by simpa [Holds, threads] using passes) ?_
  rintro (other | other | _) distinct holds
  · simpa [Holds, calls] using holds
  · have differs : other ≠ thread := fun same => distinct (by rw [same])
    simpa [Holds, threads, Function.update_of_ne differs] using holds
  · simpa [Holds, stop] using holds

/-- The call of `stop` keeps the others out. -/
theorem guards_stop (guards : Guards before.m before.Holds) (calls : after.calls = before.calls)
    (threads : after.threads = before.threads)
    (passes : Handover .stop before.m after.m before.stop.Locks after.stop.Locks) :
    Guards after.m after.Holds := by
  refine guards.handover .stop passes ?_
  rintro (other | other | _) distinct holds
  · simpa [Holds, calls] using holds
  · simpa [Holds, threads] using holds
  · exact absurd rfl distinct

theorem Moves.guards (guards : Guards before.m before.Holds) (moves : before.Moves after) :
    Guards after.m after.Holds := by
  cases moves with
  | callAddEvent call phase => exact guards_addEvent guards rfl rfl rfl (.keep rfl (by simp))
  | lockAddEvent call phase free => exact guards_addEvent guards rfl rfl rfl (.lock free rfl)
  | push call phase =>
      exact guards_addEvent guards rfl rfl rfl (.keep rfl fun _ => .inl phase)
  | unlockAddEvent call phase =>
      exact guards_addEvent guards rfl rfl rfl (.unlock (.inr phase) (by simp) rfl)
  | execute thread phase m follows handover full =>
      exact guards_execute guards rfl rfl rfl handover
  | pop thread call rest phase front =>
      exact guards_execute guards rfl rfl rfl (.keep rfl fun _ => phase ▸ trivial)
  | enter thread call phase => exact guards_execute guards rfl rfl rfl (.keep rfl False.elim)
  | finish thread call phase => exact guards_execute guards rfl rfl rfl (.keep rfl False.elim)
  | setPaused paused => exact guards
  | start free => exact guards_execute guards rfl rfl rfl (.keep rfl False.elim)
  | callStop phase => exact guards_stop guards rfl rfl (.keep rfl False.elim)
  | stop phase m paused interrupted handover empty inside =>
      exact guards_stop guards rfl rfl handover
  | join phase ended => exact guards_stop guards rfl rfl (.keep rfl False.elim)
  | idle => exact guards

/-- A thread that goes on is the one of the handle. -/
theorem single_setThread {phase : ExecutePhase}
    (single : ∀ thread, before.threads thread ≠ .ended → before.runningThread = some thread)
    (running : before.runningThread = some thread) :
    ∀ other, (before.setThread thread phase).threads other ≠ .ended →
      before.runningThread = some other :=
  (Function.forall_update_iff before.threads
    fun other phase => phase ≠ .ended → before.runningThread = some other).mpr
    ⟨fun _ => running, fun other _ => single other⟩

theorem Moves.single
    (single : ∀ thread, before.threads thread ≠ .ended → before.runningThread = some thread)
    (moves : before.Moves after) :
    ∀ thread, after.threads thread ≠ .ended → after.runningThread = some thread := by
  cases moves with
  | callAddEvent call phase => exact single
  | lockAddEvent call phase free => exact single
  | push call phase => exact single
  | unlockAddEvent call phase => exact single
  | execute thread phase m follows handover full =>
      exact single_setThread single (single thread follows.alive)
  | pop thread call rest phase front =>
      exact single_setThread single (single thread (by simp [phase]))
  | enter thread call phase => exact single_setThread single (single thread (by simp [phase]))
  | finish thread call phase => exact single_setThread single (single thread (by simp [phase]))
  | setPaused paused => exact single
  | start free =>
      intro other alive
      by_cases same : other = before.created
      · simp [same]
      · have running := single other (by simpa [setThread, Function.update_of_ne same] using alive)
        simp [free] at running
  | callStop phase => exact single
  | stop phase m paused interrupted handover empty inside => exact single
  | join phase ended =>
      intro other alive
      exact absurd (ended other (single other alive)) alive
  | idle => exact single

/-- A thread that goes on takes an event only when there is one. -/
theorem full_setThread {phase : ExecutePhase}
    (full : ∀ thread, before.threads thread = .popping → before.queue.q ≠ [])
    (ready : phase = .popping → before.queue.q ≠ []) :
    ∀ other, (before.setThread thread phase).threads other = .popping → before.queue.q ≠ [] :=
  (Function.forall_update_iff before.threads
    fun _ phase => phase = .popping → before.queue.q ≠ []).mpr ⟨ready, fun other _ => full other⟩

theorem Moves.full (exclusive : before.Exclusive) (moves : before.Moves after) :
    ∀ thread, after.threads thread = .popping → after.queue.q ≠ [] := by
  have full := exclusive.full
  cases moves with
  | callAddEvent call phase => exact full
  | lockAddEvent call phase free => exact full
  | push call phase => simp
  | unlockAddEvent call phase => exact full
  | execute thread phase m follows handover ready => exact full_setThread full ready
  | pop thread call rest phase front =>
      -- another thread that took an event would be at work, too
      have alone : ∀ other, other ≠ thread → before.threads other ≠ .popping := by
        intro other differs pops
        have one := exclusive.single thread (by simp [phase])
        have two := exclusive.single other (by simp [pops])
        exact differs (Option.some.inj (two.symm.trans one))
      exact (Function.forall_update_iff before.threads
        fun _ phase => phase = .popping → rest ≠ []).mpr
        ⟨by simp, fun other differs pops => absurd pops (alone other differs)⟩
  | enter thread call phase => exact full_setThread full (by simp)
  | finish thread call phase => exact full_setThread full (by simp)
  | setPaused paused => exact full
  | start free => exact full_setThread full (by simp)
  | callStop phase => exact full
  | stop phase m paused interrupted handover empty inside => exact full
  | join phase ended => exact full
  | idle => exact full

theorem Exclusive.moves (exclusive : before.Exclusive) (moves : before.Moves after) :
    after.Exclusive :=
  ⟨moves.guards exclusive.guards, moves.single exclusive.single, moves.full exclusive⟩

/-! ## The events on their way -/

/-- The phase of the thread of the handle. -/
def executor (state : QueueThreads) : ExecutePhase :=
  match state.runningThread with
  | none => .ended
  | some thread => state.threads thread

/-- The event of the call that has locked the mutex and not yet added it. -/
def pushing (state : QueueThreads) : List Nat :=
  match state.m with
  | some (.addEvent call) => if state.calls call = .pushing then [call] else []
  | _ => []

/-- Events move from the calls to the queue, to the thread, and through it, in one order. -/
structure Ordered (state : QueueThreads) : Prop where
  added : state.added = state.popped ++ state.queue.q ++ state.pushing
  popped : state.popped = state.begun ++ state.executor.taken
  begun : state.begun = state.finished ++ state.executor.current

theorem executor_of_running (running : state.runningThread = some thread) :
    state.executor = state.threads thread := by
  simp only [executor, running]

/-- A call that has not locked the mutex is not the one that adds an event. -/
theorem pushing_callAddEvent {phase : AddPhase} (idle : before.calls call ≠ .pushing)
    (other : phase ≠ .pushing) (m : after.m = before.m)
    (calls : after.calls = Function.update before.calls call phase) :
    before.pushing = after.pushing := by
  unfold pushing
  rw [m, calls]
  split
  · next owner owned =>
      by_cases same : owner = call
      · simp [same, idle, other]
      · simp [Function.update_of_ne same]
  · rfl

/-- Threads and `stop` leave alone what a call of `addEvent` does. -/
theorem pushing_handover {owner : QueueOwner} {held holds : Prop}
    (guards : held → before.m = some owner) (other : ∀ call, owner ≠ .addEvent call)
    (calls : after.calls = before.calls) (passes : Handover owner before.m after.m held holds) :
    before.pushing = after.pushing := by
  cases passes with
  | lock free mine =>
      cases owner with
      | addEvent call => exact absurd rfl (other call)
      | execute thread => simp [pushing, free, mine]
      | stop => simp [pushing, free, mine]
  | keep same owned => simp [pushing, same, calls]
  | unlock owned released free =>
      cases owner with
      | addEvent call => exact absurd rfl (other call)
      | execute thread => simp [pushing, free, guards owned]
      | stop => simp [pushing, free, guards owned]

/-- The order from the phase of the thread at work. -/
theorem Ordered.of_running {phase : ExecutePhase} (running : state.runningThread = some thread)
    (executes : state.threads thread = phase)
    (added : state.added = state.popped ++ state.queue.q ++ state.pushing)
    (popped : state.popped = state.begun ++ phase.taken)
    (begun : state.begun = state.finished ++ phase.current) : state.Ordered := by
  subst executes
  rw [← executor_of_running running] at popped begun
  exact ⟨added, popped, begun⟩

theorem Ordered.moves (exclusive : before.Exclusive) (ordered : before.Ordered)
    (moves : before.Moves after) : after.Ordered := by
  obtain ⟨added, popped, begun⟩ := ordered
  cases moves with
  | callAddEvent call phase =>
      refine ⟨added.trans (congrArg _ ?_), popped, begun⟩
      exact pushing_callAddEvent (by simp [phase]) (by simp) rfl rfl
  | lockAddEvent call phase free =>
      refine ⟨?_, popped, begun⟩
      simp [added, pushing, free]
  | push call phase =>
      have mine := exclusive.guards (.addEvent call) (.inl phase)
      refine ⟨?_, popped, begun⟩
      simp [added, pushing, mine, phase]
  | unlockAddEvent call phase =>
      have mine := exclusive.guards (.addEvent call) (.inr phase)
      refine ⟨?_, popped, begun⟩
      simp [added, pushing, mine, phase]
  | execute thread phase m follows handover full =>
      have running := exclusive.single thread follows.alive
      have guards := exclusive.guards (.execute thread)
      rw [executor_of_running running] at popped begun
      rw [← follows.taken] at popped
      rw [← follows.current] at begun
      refine .of_running running (Function.update_self _ _ _)
        (added.trans (congrArg _ ?_)) popped begun
      exact pushing_handover guards (by simp) rfl handover
  | pop thread call rest phase front =>
      have running := exclusive.single thread (by simp [phase])
      rw [executor_of_running running, phase] at popped begun
      refine .of_running running (Function.update_self _ _ _) ?_ ?_ begun
      · change before.added = before.popped ++ [call] ++ rest ++ before.pushing
        simp [added, front]
      · simpa [ExecutePhase.taken, setThread] using popped
  | enter thread call phase =>
      have running := exclusive.single thread (by simp [phase])
      rw [executor_of_running running, phase] at popped begun
      refine .of_running running (Function.update_self _ _ _) added ?_ ?_
      · simpa [ExecutePhase.taken, setThread] using popped
      · simpa [ExecutePhase.current, setThread] using begun
  | finish thread call phase =>
      have running := exclusive.single thread (by simp [phase])
      rw [executor_of_running running, phase] at popped begun
      refine .of_running running (Function.update_self _ _ _) added popped ?_
      simpa [ExecutePhase.current, setThread] using begun
  | setPaused paused => exact ⟨added, popped, begun⟩
  | start free =>
      have ended : before.executor = .ended := by simp only [executor, free]
      rw [ended] at popped begun
      exact .of_running rfl (Function.update_self _ _ _) added popped begun
  | callStop phase => exact ⟨added, popped, begun⟩
  | stop phase m paused interrupted handover empty inside =>
      refine ⟨added.trans (congrArg _ ?_), popped, begun⟩
      exact pushing_handover (exclusive.guards .stop) (by simp) rfl handover
  | join phase ended =>
      have executes : before.executor = .ended := by
        unfold executor
        split
        · rfl
        · next thread running => exact ended thread running
      rw [executes] at popped begun
      exact ⟨added, popped, begun⟩
  | idle => exact ⟨added, popped, begun⟩

/-! ## The calls -/

/-- What a call has to do with the order of the events. -/
structure Entered (state : QueueThreads) : Prop where
  once : state.added.Nodup
  early : ∀ call, state.calls call = .notCalled ∨ state.calls call = .locking →
    call ∉ state.added
  late : ∀ call, state.calls call = .unlocking ∨ state.calls call = .returned →
    call ∈ state.popped ++ state.queue.q

/-- A call of `addEvent` goes on. -/
theorem Entered.setCall {phase : AddPhase} (entered : before.Entered) (once : after.added.Nodup)
    (calls : after.calls = Function.update before.calls call phase)
    (added : ∀ other, other ≠ call → other ∈ after.added → other ∈ before.added)
    (queued : before.popped ++ before.queue.q ⊆ after.popped ++ after.queue.q)
    (early : phase = .notCalled ∨ phase = .locking → call ∉ after.added)
    (late : phase = .unlocking ∨ phase = .returned → call ∈ after.popped ++ after.queue.q) :
    after.Entered where
  once := once
  early := by
    rw [calls]
    refine (Function.forall_update_iff before.calls fun other phase =>
      phase = .notCalled ∨ phase = .locking → other ∉ after.added).mpr ⟨early, ?_⟩
    exact fun other differs waits member =>
      entered.early other waits (added other differs member)
  late := by
    rw [calls]
    refine (Function.forall_update_iff before.calls fun other phase =>
      phase = .unlocking ∨ phase = .returned → other ∈ after.popped ++ after.queue.q).mpr ⟨late, ?_⟩
    exact fun other _ pushed => queued (entered.late other pushed)

theorem Entered.moves (entered : before.Entered) (moves : before.Moves after) :
    after.Entered := by
  have ⟨once, early, late⟩ := entered
  cases moves with
  | callAddEvent call phase =>
      exact entered.setCall once rfl (fun _ _ => id) (List.Subset.refl _)
        (fun _ => early call (.inl phase)) (by simp)
  | lockAddEvent call phase free =>
      have new := early call (.inr phase)
      refine entered.setCall ?_ rfl ?_ (List.Subset.refl _) (by simp) (by simp)
      · exact List.nodup_append_comm.mp (List.nodup_cons.mpr ⟨new, once⟩)
      · exact fun other differs member => by simpa [differs] using member
  | push call phase =>
      refine entered.setCall once rfl (fun _ _ => id) ?_ (by simp) (by simp)
      simp only [EventQueue.addEvent_q, ← List.append_assoc]
      exact List.subset_append_left _ _
  | unlockAddEvent call phase =>
      exact entered.setCall once rfl (fun _ _ => id) (List.Subset.refl _) (by simp)
        (fun _ => late call (.inl phase))
  | pop thread call rest phase front =>
      refine ⟨once, early, fun other entered => ?_⟩
      simpa [front] using late other entered
  | execute thread phase m follows handover full => exact ⟨once, early, late⟩
  | enter thread call phase => exact ⟨once, early, late⟩
  | finish thread call phase => exact ⟨once, early, late⟩
  | setPaused paused => exact ⟨once, early, late⟩
  | start free => exact ⟨once, early, late⟩
  | callStop phase => exact ⟨once, early, late⟩
  | stop phase m paused interrupted handover empty inside => exact ⟨once, early, late⟩
  | join phase ended => exact ⟨once, early, late⟩
  | idle => exact ⟨once, early, late⟩

/-! ## Stopping -/

/-- What the call of `stop` has waited for. -/
structure Waited (state : QueueThreads) : Prop where
  returned : ∀ call, state.addedBefore call = true → state.calls call = .returned
  popped : state.stop.Drained → ∀ call, state.addedBefore call = true → call ∈ state.popped
  finished : state.stop = .returned →
    ∀ call, state.addedBefore call = true → call ∈ state.finished

/-- All events that have been taken have finished when the thread has ended. -/
theorem Ordered.popped_eq_finished (ordered : state.Ordered)
    (ended : ∀ thread ∈ state.runningThread, state.threads thread = .ended) :
    state.popped = state.finished := by
  have executes : state.executor = .ended := by
    unfold executor
    split
    · rfl
    · next thread running => exact ended thread running
  rw [ordered.popped, ordered.begun, executes]
  simp [ExecutePhase.taken, ExecutePhase.current]

/-- A call that has returned does not go on. -/
theorem Waited.setCall {phase : AddPhase} (waited : before.Waited)
    (goes : before.calls call = .returned → phase = .returned) :
    ∀ other, before.addedBefore other = true →
      Function.update before.calls call phase other = .returned :=
  (Function.forall_update_iff before.calls
    fun other phase => before.addedBefore other = true → phase = .returned).mpr
    ⟨fun earlier => goes (waited.returned call earlier), fun other _ => waited.returned other⟩

theorem Waited.moves (ordered : before.Ordered) (entered : before.Entered)
    (waited : before.Waited) (moves : before.Moves after) : after.Waited := by
  have ⟨returned, popped, finished⟩ := waited
  cases moves with
  | callAddEvent call phase =>
      exact ⟨waited.setCall (by simp [phase]), popped, finished⟩
  | lockAddEvent call phase free =>
      exact ⟨waited.setCall (by simp [phase]), popped, finished⟩
  | push call phase =>
      exact ⟨waited.setCall (by simp [phase]), popped, finished⟩
  | unlockAddEvent call phase =>
      exact ⟨waited.setCall fun _ => rfl, popped, finished⟩
  | pop thread call rest phase front =>
      exact ⟨returned, fun drained other earlier =>
        List.mem_append_left _ (popped drained other earlier), finished⟩
  | finish thread call phase =>
      exact ⟨returned, popped, fun returns other earlier =>
        List.mem_append_left _ (finished returns other earlier)⟩
  | callStop phase =>
      exact ⟨fun other earlier => by simpa using earlier, False.elim, by simp⟩
  | stop phase m paused interrupted handover empty inside =>
      refine ⟨returned, fun drained other earlier => ?_, fun returns => absurd returns inside⟩
      rcases empty drained with already | nothing
      · exact popped already other earlier
      · simpa [nothing] using entered.late other (.inr (returned other earlier))
  | join phase ended =>
      have taken := popped (phase ▸ trivial)
      refine ⟨returned, fun _ => taken, fun _ => ?_⟩
      rwa [ordered.popped_eq_finished ended] at taken
  | execute thread phase m follows handover full => exact ⟨returned, popped, finished⟩
  | enter thread call phase => exact ⟨returned, popped, finished⟩
  | setPaused paused => exact ⟨returned, popped, finished⟩
  | start free => exact ⟨returned, popped, finished⟩
  | idle => exact ⟨returned, popped, finished⟩

/-! ## The result -/

/-- What every step keeps. -/
structure Invariant (state : QueueThreads) : Prop where
  exclusive : state.Exclusive
  ordered : state.Ordered
  entered : state.Entered
  waited : state.Waited

theorem Invariant.step (invariant : before.Invariant) (taken : before.step action = some after) :
    after.Invariant := by
  have moves := step_moves taken
  exact
    { exclusive := invariant.exclusive.moves moves
      ordered := invariant.ordered.moves invariant.exclusive moves
      entered := invariant.entered.moves moves
      waited := invariant.waited.moves invariant.ordered invariant.entered moves }

/-- Before the constructor starts its thread there is nothing to keep. -/
theorem invariant_empty : Invariant {} where
  exclusive := by
    refine ⟨?_, by simp, by simp⟩
    rintro (call | thread | _) holds <;>
      simp [Holds, ExecutePhase.Locks, QueueStopPhase.Locks] at holds
  ordered := ⟨rfl, rfl, rfl⟩
  entered := by constructor <;> simp
  waited := by constructor <;> simp [QueueStopPhase.Drained]

theorem invariant_init : init.Invariant :=
  have started : step {} .start = some init := rfl
  invariant_empty.step started

theorem Ordered.begun_prefix (ordered : state.Ordered) : state.begun <+: state.added := by
  rw [ordered.added, ordered.popped]
  simp only [List.append_assoc]
  exact List.prefix_append _ _

theorem Invariant.inOrder (invariant : state.Invariant) : state.ExecutesInOrder where
  order := invariant.ordered.begun_prefix
  once := invariant.entered.once.sublist invariant.ordered.begun_prefix.sublist
  serial := by
    have begun := invariant.ordered.begun
    rcases state.executor.current_cases with none | ⟨call, one⟩
    · exact .inl (by rw [begun, none, List.append_nil])
    · exact .inr ⟨call, by rw [begun, one]⟩
  drained := invariant.waited.finished
  full := invariant.exclusive.full

/-- The events of a queue are executed in order, once, one after the other, and before `stop`
returns, however its threads are interleaved. -/
theorem executesInOrder (actions : List QueueAction) :
    Execution.Along step (fun _ _ after => after.ExecutesInOrder) actions init := by
  refine Execution.along_of_invariant (fun before action after invariant taken _ => ?_)
    invariant_init (Execution.along_of_forall (fun _ _ _ _ => trivial) actions init)
  have kept := invariant.step taken
  exact ⟨kept, kept.inOrder⟩

/-- An event of a paused queue is executed by the call of `stop`. -/
example :
    (Execution.run step
      [.pause, .callAddEvent 0, .addEvent 0, .addEvent 0, .addEvent 0, .callStop, .stop,
        .execute 0, .execute 0, .execute 0, .execute 0, .stop, .stop, .stop, .stop,
        .execute 0, .execute 0, .execute 0, .execute 0, .execute 0, .stop]
      init).map (fun state => (state.stop, state.finished)) = some (.returned, [0]) := by
  decide

/-! ## Calls that nothing comes between -/

/-- A call of `addEvent`, left alone, does what the queue without threads does. -/
theorem run_addEvent (idle : state.calls call = .notCalled) (free : state.m = none) :
    ∃ final,
      Execution.run step [.callAddEvent call, .addEvent call, .addEvent call, .addEvent call]
          state = some final ∧
        final.queue = state.queue.addEvent call ∧ final.m = none ∧
        final.calls call = .returned := by
  simp [Execution.run, step, stepAddEvent, idle, free]

/-- A turn of `execute`, left alone, takes what the queue without threads takes. -/
theorem run_next {later : EventQueue Nat} (waits : state.threads thread = .locking)
    (free : state.m = none) (next : state.queue.next = some (call, later)) :
    ∃ final,
      Execution.run step (List.replicate 4 (.execute thread)) state = some final ∧
        final.queue = later ∧ final.m = none ∧ final.threads thread = .calling call := by
  obtain ⟨running, front, flag⟩ := EventQueue.next_eq_some next
  have same : { q := later.q, paused := state.queue.paused } = later := by rw [running, ← flag]
  simp [Execution.run, step, stepExecute, setThread, waits, free, next, front, same]

end QueueThreads

end Quintet
