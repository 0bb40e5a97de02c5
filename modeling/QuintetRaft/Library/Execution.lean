import Mathlib.Data.List.Basic

/-!
# Executions of a partial step function

A deterministic step function on labelled transitions gives every list of labels at most one run.
`Along` states a property of every transition of that run, so that a guard on the steps of a run
and a guarantee about them are the same kind of object.
-/

namespace Execution

variable {σ ι : Type*} (step : σ → ι → Option σ)

/-- Execute a list of labels, failing when one of them is not enabled. -/
def run : List ι → σ → Option σ
  | [], state => some state
  | label :: labels, state => (step state label).bind (run labels)

/-- Every transition of the run satisfies a property of its source, label and target. -/
def Along (property : σ → ι → σ → Prop) : List ι → σ → Prop
  | [], _ => True
  | label :: labels, state =>
      match step state label with
      | none => True
      | some after => property state label after ∧ Along property labels after

instance decidableAlong (property : σ → ι → σ → Prop)
    [∀ before label after, Decidable (property before label after)] :
    (labels : List ι) → (state : σ) → Decidable (Along step property labels state)
  | [], _ => .isTrue trivial
  | label :: labels, state =>
      (match step state label with
        | none => .isTrue trivial
        | some after => @instDecidableAnd _ _ _ (decidableAlong property labels after) :
        Decidable (match step state label with
          | none => True
          | some after => property state label after ∧ Along step property labels after))

/-- A step with a guard is taken exactly when the guard holds. -/
theorem guarded_eq_some {enabled : Prop} [Decidable enabled] {result after : σ} :
    (if enabled then some result else none) = some after ↔ enabled ∧ result = after := by
  simp

variable {step} {property guarantee : σ → ι → σ → Prop} {invariant : σ → Prop}

theorem run_append (left right : List ι) (state : σ) :
    run step (left ++ right) state = (run step left state).bind (run step right) := by
  induction left generalizing state with
  | nil => rfl
  | cons label labels ih =>
      simp only [List.cons_append, run]
      cases step state label with
      | none => rfl
      | some after => exact ih after

theorem run_cons {label : ι} {labels : List ι} {state after : σ}
    (taken : step state label = some after) :
    run step (label :: labels) state = run step labels after := by
  simp only [run, taken, Option.bind_some]

theorem along_cons {label : ι} {labels : List ι} {state after : σ}
    (taken : step state label = some after) :
    Along step property (label :: labels) state ↔
      property state label after ∧ Along step property labels after := by
  simp only [Along, taken]

theorem along_append {left right : List ι} {state : σ} :
    Along step property (left ++ right) state ↔
      Along step property left state ∧
        ∀ middle, run step left state = some middle → Along step property right middle := by
  induction left generalizing state with
  | nil => simp [Along, run]
  | cons label labels ih =>
      simp only [List.cons_append, Along, run]
      cases step state label with
      | none => simp
      | some after => simp [ih, and_assoc]

/-- A guard and an invariant preserved by guarded steps give a guarantee for every step of a
guarded run. -/
theorem along_of_invariant
    (preserved : ∀ before label after, invariant before → step before label = some after →
      property before label after → invariant after ∧ guarantee before label after)
    {labels : List ι} {state : σ} (start : invariant state)
    (guarded : Along step property labels state) : Along step guarantee labels state := by
  induction labels generalizing state with
  | nil => trivial
  | cons label labels ih =>
      unfold Along at guarded ⊢
      cases taken : step state label with
      | none => trivial
      | some after =>
          rw [taken] at guarded
          obtain ⟨kept, holds⟩ := preserved state label after start taken guarded.1
          exact ⟨holds, ih kept guarded.2⟩

/-- An invariant preserved by guarded steps holds at the end of every guarded run. -/
theorem invariant_of_along
    (preserved : ∀ before label after, invariant before → step before label = some after →
      property before label after → invariant after)
    {labels : List ι} {state final : σ} (start : invariant state)
    (guarded : Along step property labels state)
    (execution : run step labels state = some final) : invariant final := by
  induction labels generalizing state with
  | nil =>
      obtain rfl : state = final := by simpa [run] using execution
      exact start
  | cons label labels ih =>
      simp only [run] at execution
      obtain ⟨after, taken, later⟩ := Option.bind_eq_some_iff.mp execution
      obtain ⟨holds, rest⟩ := (along_cons taken).mp guarded
      exact ih (preserved state label after start taken holds) rest later

/-- An invariant preserved by all steps holds at the end of every run. -/
theorem invariant_of_run
    (preserved : ∀ before label after, invariant before → step before label = some after →
      invariant after)
    {labels : List ι} {state final : σ} (start : invariant state)
    (execution : run step labels state = some final) : invariant final := by
  induction labels generalizing state with
  | nil =>
      obtain rfl : state = final := by simpa [run] using execution
      exact start
  | cons label labels ih =>
      simp only [run] at execution
      obtain ⟨after, taken, later⟩ := Option.bind_eq_some_iff.mp execution
      exact ih (preserved state label after start taken) later

/-- Step-equivalent properties hold along the same runs. -/
theorem along_congr
    (equivalent : ∀ before label after, step before label = some after →
      (property before label after ↔ guarantee before label after))
    {labels : List ι} {state : σ} :
    Along step property labels state ↔ Along step guarantee labels state := by
  induction labels generalizing state with
  | nil => exact Iff.rfl
  | cons label labels ih =>
      unfold Along
      cases taken : step state label with
      | none => exact Iff.rfl
      | some after =>
          exact and_congr (equivalent state label after taken) ih

/-- Properties that are equivalent under an invariant, which each of them preserves, hold along the
same runs. -/
theorem along_congr_of_invariant
    (equivalent : ∀ before label after, invariant before → step before label = some after →
      (property before label after ↔ guarantee before label after))
    (preserved : ∀ before label after, invariant before → step before label = some after →
      guarantee before label after → invariant after)
    {labels : List ι} {state : σ} (start : invariant state) :
    Along step property labels state ↔ Along step guarantee labels state := by
  constructor
  · refine along_of_invariant (fun before label after kept taken holds => ?_) start
    have holds' := (equivalent before label after kept taken).mp holds
    exact ⟨preserved before label after kept taken holds', holds'⟩
  · refine along_of_invariant (fun before label after kept taken holds => ?_) start
    exact ⟨preserved before label after kept taken holds,
      (equivalent before label after kept taken).mpr holds⟩

theorem Along.mono
    (implies : ∀ before label after, property before label after → guarantee before label after)
    {labels : List ι} {state : σ} (holds : Along step property labels state) :
    Along step guarantee labels state :=
  along_of_invariant
    (fun before label after (_ : True) _ given => ⟨trivial, implies before label after given⟩)
    trivial holds

/-- The guard of a run is met by each of its beginnings. -/
theorem Along.take {labels : List ι} {state : σ} (holds : Along step property labels state)
    (count : Nat) : Along step property (labels.take count) state := by
  rw [← List.take_append_drop count labels] at holds
  exact (along_append.mp holds).1

/-- A property of all transitions is a property of every run. -/
theorem along_of_forall
    (always : ∀ before label after, step before label = some after → property before label after)
    (labels : List ι) (state : σ) : Along step property labels state := by
  induction labels generalizing state with
  | nil => trivial
  | cons label labels ih =>
      unfold Along
      cases taken : step state label with
      | none => trivial
      | some after => exact ⟨always state label after taken, ih after⟩

/-- A property of all labels is a property of every step of a run. -/
theorem along_of_labels {allowed : ι → Prop} {labels : List ι}
    (only : ∀ label ∈ labels, allowed label) (state : σ) :
    Along step (fun _ label _ => allowed label) labels state := by
  induction labels generalizing state with
  | nil => trivial
  | cons label labels ih =>
      obtain ⟨first, rest⟩ := List.forall_mem_cons.mp only
      unfold Along
      cases step state label with
      | none => trivial
      | some after => exact ⟨first, ih rest after⟩

/-- A longer beginning of a run continues a shorter one. -/
theorem exists_run_of_take_le {labels : List ι} {earlier later : ℕ} {state first second : σ}
    (ordered : earlier ≤ later) (reached : run step (labels.take earlier) state = some first)
    (reachedLater : run step (labels.take later) state = some second) :
    ∃ rest, run step rest first = some second := by
  refine ⟨(labels.take later).drop earlier, ?_⟩
  have split : labels.take later = labels.take earlier ++ (labels.take later).drop earlier := by
    conv_lhs => rw [← List.take_append_drop earlier (labels.take later)]
    rw [List.take_take, Nat.min_eq_left ordered]
  rw [split, run_append, reached] at reachedLater
  exact reachedLater

/-- The rest of a guarded run is guarded. -/
theorem exists_along_of_take_le {labels : List ι} {earlier later : ℕ} {state first second : σ}
    (ordered : earlier ≤ later) (guarded : Along step property labels state)
    (reached : run step (labels.take earlier) state = some first)
    (reachedLater : run step (labels.take later) state = some second) :
    ∃ rest, Along step property rest first ∧ run step rest first = some second := by
  have split : labels.take later = labels.take earlier ++ (labels.take later).drop earlier := by
    conv_lhs => rw [← List.take_append_drop earlier (labels.take later)]
    rw [List.take_take, Nat.min_eq_left ordered]
  have guardedLater := guarded.take later
  rw [split] at guardedLater reachedLater
  rw [run_append, reached] at reachedLater
  exact ⟨_, (along_append.mp guardedLater).2 first reached, reachedLater⟩

variable (step) in
/-- Every state that a run reaches is finished, or a step can be taken in it. -/
def DeadlockFree (finished : σ → Prop) (start : σ) : Prop :=
  ∀ labels final, run step labels start = some final →
    finished final ∨ ∃ label, (step final label).isSome

/-! ## Reachable states -/

variable (step) in
/-- Some steps lead from one state to the other. -/
def Reaches (before after : σ) : Prop := ∃ labels, run step labels before = some after

theorem Reaches.refl (state : σ) : Reaches step state state := ⟨[], rfl⟩

theorem Reaches.trans {before state after : σ} (first : Reaches step before state)
    (second : Reaches step state after) : Reaches step before after := by
  obtain ⟨left, leftRun⟩ := first
  obtain ⟨right, rightRun⟩ := second
  refine ⟨left ++ right, ?_⟩
  rw [run_append, leftRun]
  exact rightRun

theorem reaches_of_step {label : ι} {before after : σ} (taken : step before label = some after) :
    Reaches step before after :=
  ⟨[label], run_cons taken⟩

/-- What all steps preserve holds of whatever they lead to. -/
theorem Reaches.preserves {before after : σ} (reached : Reaches step before after)
    (preserved : ∀ before label after, invariant before → step before label = some after →
      invariant after)
    (start : invariant before) : invariant after := by
  obtain ⟨labels, execution⟩ := reached
  exact invariant_of_run preserved start execution

end Execution
