import QuintetRaft.Library.Execution

/-!
# Traces

The states that a run leads through.  A machine that is seen through an observation shows exactly
the traces of another machine when each step of one can be seen as a step of the other.
-/

namespace Execution

variable {σ τ ι κ : Type*}

/-- The states that a list of labels leads through, the first one included. -/
def trace (step : σ → ι → Option σ) : List ι → σ → Option (List σ)
  | [], state => some [state]
  | label :: labels, state =>
      (step state label).bind fun after => (trace step labels after).map (state :: ·)

variable {step : σ → ι → Option σ} {other : τ → κ → Option τ}

/-- A trace of several states begins with a step. -/
theorem trace_cons_eq_some {label : ι} {labels : List ι} {state : σ} {states : List σ} :
    trace step (label :: labels) state = some states ↔
      ∃ after rest, step state label = some after ∧ trace step labels after = some rest ∧
        states = state :: rest := by
  simp only [trace, Option.bind_eq_some_iff, Option.map_eq_some_iff, eq_comm (b := states)]
  exact ⟨fun ⟨after, taken, rest, later, same⟩ => ⟨after, rest, taken, later, same⟩,
    fun ⟨after, rest, taken, later, same⟩ => ⟨after, taken, rest, later, same⟩⟩

/-- A trace begins with the state it starts from. -/
theorem trace_head {labels : List ι} {state : σ} {states : List σ}
    (shown : trace step labels state = some states) : ∃ rest, states = state :: rest := by
  cases labels with
  | nil => exact ⟨[], (Option.some.inj shown).symm⟩
  | cons label labels =>
      obtain ⟨after, rest, -, -, rfl⟩ := trace_cons_eq_some.mp shown
      exact ⟨rest, rfl⟩

variable {observe : σ → τ} {invariant : σ → Prop} {allowed : τ → Prop}

/-- Steps that are seen as steps of another machine give traces that are seen as its traces. -/
theorem exists_trace_of_forth
    (forth : ∀ before label after, invariant before → step before label = some after →
      allowed (observe after) →
        invariant after ∧ ∃ event, other (observe before) event = some (observe after))
    {labels : List ι} {start : σ} {states : List σ} (holds : invariant start)
    (shown : trace step labels start = some states)
    (all : ∀ state ∈ states, allowed (observe state)) :
    ∃ events, trace other events (observe start) = some (states.map observe) := by
  induction labels generalizing start states with
  | nil =>
      obtain rfl := Option.some.inj shown
      exact ⟨[], rfl⟩
  | cons label labels ih =>
      obtain ⟨after, rest, taken, later, rfl⟩ := trace_cons_eq_some.mp shown
      obtain ⟨-, all⟩ := List.forall_mem_cons.mp all
      have next : allowed (observe after) := by
        obtain ⟨more, rfl⟩ := trace_head later
        exact all after List.mem_cons_self
      obtain ⟨kept, event, seen⟩ := forth start label after holds taken next
      obtain ⟨events, follows⟩ := ih kept later all
      exact ⟨event :: events, trace_cons_eq_some.mpr ⟨_, _, seen, follows, rfl⟩⟩

/-- Steps of another machine that can be shown give traces that can be shown. -/
theorem exists_trace_of_back
    (forth : ∀ before label after, invariant before → step before label = some after →
      allowed (observe after) →
        invariant after ∧ ∃ event, other (observe before) event = some (observe after))
    (back : ∀ before event final, invariant before → other (observe before) event = some final →
      ∃ label after, step before label = some after ∧ observe after = final)
    {events : List κ} {start : σ} {states : List τ} (holds : invariant start)
    (shown : trace other events (observe start) = some states)
    (all : ∀ state ∈ states, allowed state) :
    ∃ labels, (trace step labels start).map (List.map observe) = some states := by
  induction events generalizing start states with
  | nil =>
      obtain rfl := Option.some.inj shown
      exact ⟨[], rfl⟩
  | cons event events ih =>
      obtain ⟨final, rest, taken, later, rfl⟩ := trace_cons_eq_some.mp shown
      obtain ⟨-, all⟩ := List.forall_mem_cons.mp all
      obtain ⟨label, after, moved, rfl⟩ := back start event final holds taken
      have next : allowed (observe after) := by
        obtain ⟨more, rfl⟩ := trace_head later
        exact all _ List.mem_cons_self
      obtain ⟨labels, seen⟩ := ih (forth start label after holds moved next).1 later all
      obtain ⟨visited, follows, rfl⟩ := Option.map_eq_some_iff.mp seen
      exact ⟨label :: labels, Option.map_eq_some_iff.mpr
        ⟨_, trace_cons_eq_some.mpr ⟨_, _, moved, follows, rfl⟩, rfl⟩⟩

/-- A machine shows the traces of another one, as long as these are allowed. -/
theorem traces_iff
    (forth : ∀ before label after, invariant before → step before label = some after →
      allowed (observe after) →
        invariant after ∧ ∃ event, other (observe before) event = some (observe after))
    (back : ∀ before event final, invariant before → other (observe before) event = some final →
      ∃ label after, step before label = some after ∧ observe after = final)
    {start : σ} {states : List τ} (holds : invariant start)
    (all : ∀ state ∈ states, allowed state) :
    (∃ labels, (trace step labels start).map (List.map observe) = some states) ↔
      ∃ events, trace other events (observe start) = some states := by
  constructor
  · rintro ⟨labels, seen⟩
    obtain ⟨visited, shown, rfl⟩ := Option.map_eq_some_iff.mp seen
    exact exists_trace_of_forth forth holds shown (List.forall_mem_map.mp all)
  · rintro ⟨events, shown⟩
    exact exists_trace_of_back forth back holds shown all

end Execution
