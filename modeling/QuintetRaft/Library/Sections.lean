import QuintetRaft.Library.Execution

/-!
# Work done in sections

The threads of a machine do what an event asks for in sections, one access to the shared state after
the other, and the sections of different threads take turns.  A coarser machine does all the work of
an event in one step.  As long as no event begins while the work of another one is going on, the
first machine can be taken for the second.
-/

namespace Sections

variable {σ ε α θ : Type*}

/-- How the work of events is cut: states, events, outputs, and threads in the middle of their
work. -/
structure Program (σ ε α θ : Type*) where
  /-- An event begins: its first section, what that emits, and the thread that has more to do. -/
  start : σ → ε → Option (σ × List α × Option θ)
  /-- The next section of a thread. -/
  go : θ → σ → Option (σ × List α × Option θ)
  /-- The threads in the middle of their work let an event begin. -/
  admits : List θ → ε → Bool
  /-- A thread in the middle of its work keeps another one from going on. -/
  blocks : θ → θ → Bool

/-- A machine whose threads are somewhere in their work. -/
structure Process (σ α θ : Type*) where
  /-- The shared state. -/
  state : σ
  /-- What has been emitted, oldest first. -/
  sent : List α := []
  /-- The threads in the middle of their work. -/
  running : List θ := []

/-- What can happen to such a machine. -/
inductive Act (ε : Type*)
  /-- An event begins. -/
  | start (event : ε)
  /-- The thread at a position goes on. -/
  | go (position : Nat)
  deriving DecidableEq

namespace Process

/-- The machine after a section. -/
def after (process : Process σ α θ) (section' : σ × List α × Option θ) (running : List θ) :
    Process σ α θ where
  state := section'.1
  sent := process.sent ++ section'.2.1
  running

/-- One section of one thread. -/
def step (program : Program σ ε α θ) (process : Process σ α θ) :
    Act ε → Option (Process σ α θ)
  | .start event =>
      if program.admits process.running event then
        (program.start process.state event).map fun result =>
          process.after result (process.running ++ result.2.2.toList)
      else none
  | .go position =>
      process.running[position]?.bind fun thread =>
        if (process.running.eraseIdx position).any (program.blocks · thread) then none
        else (program.go thread process.state).map fun result =>
          process.after result (process.running.take position ++ result.2.2.toList ++
            process.running.drop (position + 1))

/-- Nothing begins while a thread is in the middle of its work. -/
def Undisturbed (process : Process σ α θ) : Act ε → Prop
  | .start _ => process.running = []
  | .go _ => True

instance (process : Process σ α θ) : (act : Act ε) → Decidable (process.Undisturbed act)
  | .start _ => inferInstanceAs (Decidable (process.running = []))
  | .go _ => .isTrue trivial

variable {program : Program σ ε α θ} {before after : Process σ α θ}

theorem step_start {event : ε} :
    before.step program (.start event) = some after ↔
      program.admits before.running event ∧ ∃ result,
        program.start before.state event = some result ∧
          after = before.after result (before.running ++ result.2.2.toList) := by
  simp only [step, Option.ite_none_right_eq_some, Option.map_eq_some_iff, eq_comm (b := after)]

theorem step_go {position : Nat} :
    before.step program (.go position) = some after ↔
      ∃ thread, before.running[position]? = some thread ∧
        (before.running.eraseIdx position).any (program.blocks · thread) = false ∧ ∃ result,
        program.go thread before.state = some result ∧
          after = before.after result (before.running.take position ++ result.2.2.toList ++
            before.running.drop (position + 1)) := by
  simp only [step, Option.bind_eq_some_iff, Option.ite_none_left_eq_some, Option.map_eq_some_iff,
    Bool.not_eq_true, eq_comm (b := after)]

/-- What has been emitted stays. -/
theorem sent_begins {act : Act ε} (taken : before.step program act = some after) :
    before.sent <+: after.sent := by
  cases act with
  | start event =>
      obtain ⟨-, result, -, rfl⟩ := step_start.mp taken
      exact List.prefix_append _ _
  | go position =>
      obtain ⟨thread, -, -, result, -, rfl⟩ := step_go.mp taken
      exact List.prefix_append _ _

end Process

/-! ## Work that nobody disturbs -/

variable {program : Program σ ε α θ} {coarse : σ → ε → Option (σ × List α)}

/-- A thread that works alone comes to its end: the final state and what is emitted on the way. -/
inductive Completes (program : Program σ ε α θ) : σ → Option θ → σ → List α → Prop
  /-- There is nothing to do. -/
  | done (state : σ) : Completes program state none state []
  /-- It takes a section, and comes to its end after that. -/
  | more {state after final : σ} {thread : θ} {first rest : List α} {next : Option θ}
      (taken : program.go thread state = some (after, first, next))
      (later : Completes program after next final rest) :
      Completes program state (some thread) final (first ++ rest)

/-- A thread that works alone gets stuck, and has done nothing. -/
inductive Fails (program : Program σ ε α θ) (state : σ) : θ → Prop
  /-- It is stuck. -/
  | stuck {thread : θ} (fails : program.go thread state = none) : Fails program state thread
  /-- It does nothing in its next section, and gets stuck later. -/
  | more {thread next : θ} (taken : program.go thread state = some (state, [], some next))
      (later : Fails program state next) : Fails program state thread

/-- The work of the events, done without disturbance, is that of the coarser machine. -/
structure Program.Refines (program : Program σ ε α θ) (coarse : σ → ε → Option (σ × List α)) :
    Prop where
  /-- What the coarser machine does begins, and comes to its end. -/
  covers : ∀ state event final sent, coarse state event = some (final, sent) →
    ∃ after first next rest, program.start state event = some (after, first, next) ∧
      Completes program after next final rest ∧ sent = first ++ rest
  /-- What begins without being done by the coarser machine gets stuck. -/
  fails : ∀ state event after first next, program.start state event = some (after, first, next) →
    coarse state event = none →
      after = state ∧ first = [] ∧ ∃ thread, next = some thread ∧ Fails program state thread

/-- The machine looks like one that has already come to the end of what it is doing, or that has not
begun what will get stuck. -/
inductive Shows (program : Program σ ε α θ) (process : Process σ α θ) : σ → List α → Prop
  /-- What is going on will come to its end. -/
  | completing {next : Option θ} {final : σ} {rest : List α}
      (running : process.running = next.toList)
      (completes : Completes program process.state next final rest) :
      Shows program process final (process.sent ++ rest)
  /-- What is going on will get stuck. -/
  | failing {thread : θ} (running : process.running = [thread])
      (fails : Fails program process.state thread) :
      Shows program process process.state process.sent

/-- A machine at rest looks as it is. -/
theorem shows_refl (process : Process σ α θ) (idle : process.running = []) :
    Shows program process process.state process.sent := by
  have shown : Shows program process process.state (process.sent ++ []) :=
    .completing (show process.running = (none : Option θ).toList from idle) (.done process.state)
  rwa [List.append_nil] at shown

namespace Shows

variable {before after : Process σ α θ} {state : σ} {sent : List α}

/-- A machine at rest looks like nothing else. -/
theorem eq_of_idle (shows : Shows program before state sent) (idle : before.running = []) :
    state = before.state ∧ sent = before.sent := by
  cases shows with
  | @completing next final rest running completes =>
      cases completes with
      | done => exact ⟨rfl, List.append_nil _⟩
      | more taken later => simp [idle] at running
  | failing running fails => simp [idle] at running

/-- What has been emitted can be seen. -/
theorem sent_begins (shows : Shows program before state sent) : before.sent <+: sent := by
  cases shows with
  | completing running completes => exact List.prefix_append _ _
  | failing running fails => exact List.prefix_rfl

/-- When an event begins at rest, it can be seen as a whole, or not at all. -/
theorem start (refines : program.Refines coarse) {event : ε} (idle : before.running = [])
    (taken : before.step program (.start event) = some after) :
    (∃ final outputs, coarse before.state event = some (final, outputs) ∧
        Shows program after final (before.sent ++ outputs)) ∨
      coarse before.state event = none ∧ Shows program after before.state before.sent := by
  obtain ⟨-, ⟨next, first, thread⟩, starts, rfl⟩ := Process.step_start.mp taken
  cases moved : coarse before.state event with
  | some result =>
      obtain ⟨final, outputs⟩ := result
      obtain ⟨_, _, _, rest, starts', completes, rfl⟩ := refines.covers _ _ _ _ moved
      obtain ⟨rfl, rfl, rfl⟩ : _ ∧ _ ∧ _ := by simpa [starts] using starts'
      refine .inl ⟨final, _, rfl, ?_⟩
      rw [← List.append_assoc]
      exact .completing (by simp [Process.after, idle]) completes
  | none =>
      obtain ⟨rfl, rfl, thread, rfl, fails⟩ := refines.fails _ _ _ _ _ starts moved
      have shown : Shows program
          (before.after (before.state, [], some thread) (before.running ++ [thread])) before.state
          (before.sent ++ []) := .failing (by simp [Process.after, idle]) fails
      rw [List.append_nil] at shown
      exact .inr ⟨rfl, shown⟩

/-- While the work goes on, the machine looks the same. -/
theorem go {position : Nat} (shows : Shows program before state sent)
    (taken : before.step program (.go position) = some after) :
    Shows program after state sent := by
  obtain ⟨thread, present, -, ⟨next, first, later⟩, moved, rfl⟩ := Process.step_go.mp taken
  -- the thread that goes on is the only one
  have alone : ∀ other, before.running = [other] → thread = other ∧
      before.running.take position ++ later.toList ++ before.running.drop (position + 1) =
        later.toList := by
    intro other running
    rw [running] at present ⊢
    obtain ⟨inside, rfl⟩ := List.getElem?_eq_some_iff.mp present
    obtain rfl : position = 0 := Nat.lt_one_iff.mp inside
    simp
  cases shows with
  | @completing current final rest running completes =>
      cases completes with
      | done => simp [running] at present
      | more taken' completes =>
          obtain ⟨rfl, remaining⟩ := alone _ running
          obtain ⟨rfl, rfl, rfl⟩ : _ ∧ _ ∧ _ := by simpa [moved] using taken'
          rw [remaining, ← List.append_assoc]
          exact .completing rfl completes
  | failing running fails =>
      obtain ⟨rfl, remaining⟩ := alone _ running
      cases fails with
      | stuck stuck => simp [moved] at stuck
      | @more _ next' taken' fails =>
          obtain ⟨rfl, rfl, rfl⟩ : _ ∧ _ ∧ _ := by simpa [moved] using taken'
          have shown : Shows program (before.after (before.state, [], some next')
              (before.running.take position ++ [next'] ++ before.running.drop (position + 1)))
              before.state (before.sent ++ []) := .failing remaining fails
          rwa [List.append_nil] at shown

end Shows

/-! ## Runs -/

/-- What begins meets a condition on the state and on what has been emitted. -/
def Process.Starts (guard : σ → List α → ε → Prop) (process : Process σ α θ) : Act ε → Prop
  | .start event => guard process.state process.sent event
  | .go _ => True

instance (guard : σ → List α → ε → Prop) [∀ state sent event, Decidable (guard state sent event)]
    (process : Process σ α θ) : (act : Act ε) → Decidable (process.Starts guard act)
  | .start event => inferInstanceAs (Decidable (guard process.state process.sent event))
  | .go _ => .isTrue trivial

/-- A step that nobody disturbs is a step of the coarser machine, or cannot be seen. -/
theorem Shows.step (refines : program.Refines coarse) {guard : σ → List α → ε → Prop}
    {invariant : σ → List α → Prop}
    (preserved : ∀ state sent event final outputs, invariant state sent →
      guard state sent event → coarse state event = some (final, outputs) →
      invariant final (sent ++ outputs))
    {before after : Process σ α θ} {act : Act ε} (taken : before.step program act = some after)
    (undisturbed : before.Undisturbed act) (starts : before.Starts guard act)
    (shown : ∃ state sent, Shows program before state sent ∧ invariant state sent) :
    ∃ state sent, Shows program after state sent ∧ invariant state sent := by
  obtain ⟨state, sent, shows, holds⟩ := shown
  cases act with
  | start event =>
      obtain ⟨rfl, rfl⟩ := shows.eq_of_idle undisturbed
      rcases Shows.start refines undisturbed taken with ⟨final, outputs, moved, later⟩ | ⟨-, later⟩
      · exact ⟨_, _, later, preserved _ _ _ _ _ holds starts moved⟩
      · exact ⟨_, _, later, holds⟩
  | go position => exact ⟨state, sent, shows.go taken, holds⟩

/-- What the coarser machine preserves can be seen at the end of every run that nobody disturbs. -/
theorem exists_shows (refines : program.Refines coarse) {guard : σ → List α → ε → Prop}
    {invariant : σ → List α → Prop}
    (preserved : ∀ state sent event final outputs, invariant state sent →
      guard state sent event → coarse state event = some (final, outputs) →
      invariant final (sent ++ outputs))
    {acts : List (Act ε)} {start final : Process σ α θ} (idle : start.running = [])
    (holds : invariant start.state start.sent)
    (guarded : Execution.Along (Process.step program)
      (fun before act _ => before.Undisturbed act ∧ before.Starts guard act) acts start)
    (execution : Execution.run (Process.step program) acts start = some final) :
    ∃ state sent, Shows program final state sent ∧ invariant state sent :=
  Execution.invariant_of_along
    (fun _ _ _ shown taken careful =>
      Shows.step refines preserved taken careful.1 careful.2 shown)
    ⟨_, _, shows_refl start idle, holds⟩ guarded execution

end Sections
