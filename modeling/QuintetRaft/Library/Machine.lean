import Mathlib.Data.List.Basic

/-!
# Machines that answer calls

A machine takes calls one after the other, changes its state and answers.  One machine refines
another, on the calls that the other permits, when it gives the same answers.
-/

namespace Machine

variable {σ τ ι α : Type*}

/-- Take calls one after the other: the final state and the answers. -/
def run (step : σ → ι → σ × α) : List ι → σ → σ × List α
  | [], state => (state, [])
  | call :: calls, state =>
      let (next, answer) := step state call
      let (final, answers) := run step calls next
      (final, answer :: answers)

/-- Every call is permitted in the state it finds. -/
def Permitted (step : τ → ι → τ × α) (permits : τ → ι → Prop) : List ι → τ → Prop
  | [], _ => True
  | call :: calls, state =>
      permits state call ∧ Permitted step permits calls (step state call).1

instance decidablePermitted (step : τ → ι → τ × α) (permits : τ → ι → Prop)
    [∀ state call, Decidable (permits state call)] :
    (calls : List ι) → (state : τ) → Decidable (Permitted step permits calls state)
  | [], _ => .isTrue trivial
  | _ :: calls, state =>
      @instDecidableAnd _ _ _ (decidablePermitted step permits calls (step state _).1)

/-- From related states, a permitted call is answered alike and leads to related states. -/
def Refines (concrete : σ → ι → σ × α) (abstract : τ → ι → τ × α) (permits : τ → ι → Prop)
    (relation : σ → τ → Prop) : Prop :=
  ∀ state spec call, relation state spec → permits spec call →
    (concrete state call).2 = (abstract spec call).2 ∧
      relation (concrete state call).1 (abstract spec call).1

/-- Permitted runs are answered alike. -/
theorem Refines.run {concrete : σ → ι → σ × α} {abstract : τ → ι → τ × α}
    {permits : τ → ι → Prop} {relation : σ → τ → Prop}
    (refines : Refines concrete abstract permits relation) {calls : List ι} {state : σ} {spec : τ}
    (related : relation state spec) (permitted : Permitted abstract permits calls spec) :
    (Machine.run concrete calls state).2 = (Machine.run abstract calls spec).2 ∧
      relation (Machine.run concrete calls state).1 (Machine.run abstract calls spec).1 := by
  induction calls generalizing state spec with
  | nil => exact ⟨rfl, related⟩
  | cons call calls ih =>
      obtain ⟨now, later⟩ := permitted
      obtain ⟨answer, next⟩ := refines state spec call related now
      obtain ⟨answers, final⟩ := ih next later
      exact ⟨congrArg₂ List.cons answer answers, final⟩

end Machine
