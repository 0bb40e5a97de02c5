import Mathlib.Logic.Basic

/-!
# Mutexes

A mutex is given by its owner, if any.  That only the owner is in the sections it guards is kept by
every step in which one party locks it, keeps what it has, or unlocks it.
-/

namespace Mutex

variable {Owner : Type*} {m later : Option Owner} {owner other : Owner}
  {Holds Later : Owner → Prop}

/-- Whoever is in a guarded section owns the mutex. -/
def Guards (m : Option Owner) (Holds : Owner → Prop) : Prop :=
  ∀ owner, Holds owner → m = some owner

/-- What one party does with the mutex: `held` and `holds` tell whether it is in a guarded section
before and afterwards. -/
inductive Handover (owner : Owner) (before after : Option Owner) (held holds : Prop) : Prop
  | lock (free : before = none) (mine : after = some owner)
  | keep (same : after = before) (owned : holds → held)
  | unlock (owned : held) (released : ¬ holds) (free : after = none)

theorem Guards.not_holds (guards : Guards m Holds) (free : m = none) : ¬ Holds owner := by
  intro holds
  have owned := guards owner holds
  simp [free] at owned

/-- No two parties are in guarded sections. -/
theorem Guards.eq (guards : Guards m Holds) (one : Holds owner) (two : Holds other) :
    owner = other :=
  Option.some.inj ((guards owner one).symm.trans (guards other two))

/-- A step of one party keeps the others out. -/
theorem Guards.handover (owner : Owner) (guards : Guards m Holds)
    (passes : Handover owner m later (Holds owner) (Later owner))
    (others : ∀ other, other ≠ owner → Later other → Holds other) : Guards later Later := by
  intro other holds
  by_cases self : other = owner
  · subst self
    cases passes with
    | lock free mine => exact mine
    | keep same owned => exact same.trans (guards other (owned holds))
    | unlock owned released free => exact absurd holds released
  · have held := others other self holds
    cases passes with
    | lock free mine => exact absurd held (guards.not_holds free)
    | keep same owned => exact same.trans (guards other held)
    | unlock owned released free => exact absurd (guards.eq held owned) self

/-- Exactly the owner of the mutex is in a guarded section. -/
def Owns (m : Option Owner) (Holds : Owner → Prop) : Prop :=
  ∀ owner, Holds owner ↔ m = some owner

/-- What one party does with the mutex when only the guarded sections need it. -/
inductive Passes (owner : Owner) (before after : Option Owner) (held holds : Prop) : Prop
  | lock (free : before = none) (mine : after = some owner) (inside : holds)
  | keep (same : after = before) (stays : holds ↔ held)
  | unlock (owned : held) (released : ¬ holds) (free : after = none)

/-- A step of one party leaves exactly the owner in a guarded section. -/
theorem Owns.passes (owns : Owns m Holds)
    (passes : Passes owner m later (Holds owner) (Later owner))
    (others : ∀ other, other ≠ owner → (Later other ↔ Holds other)) : Owns later Later := by
  intro other
  by_cases self : other = owner
  · subst self
    cases passes with
    | lock free mine inside => exact iff_of_true inside mine
    | keep same stays => rw [stays, owns, same]
    | unlock owned released free => exact iff_of_false released (by simp [free])
  · rw [others other self, owns]
    cases passes with
    | lock free mine inside => simp [free, mine, Ne.symm self]
    | keep same stays => rw [same]
    | unlock owned released free =>
        have mine : m = some owner := (owns owner).mp owned
        simp [free, mine, Ne.symm self]

end Mutex
