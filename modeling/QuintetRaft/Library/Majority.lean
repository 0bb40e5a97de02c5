import Mathlib.Data.List.Nodup
import Mathlib.Data.List.Perm.Subperm
import Mathlib.Tactic.Push

/-!
# Majorities

A property has a majority in a list of members when more than half of them are among its
distinct witnesses.  Two majorities share a member.
-/

/-- A weaker property with one more witness has a greater count. -/
theorem List.countP_lt_countP {α : Type*} {members : List α} {left right : α → Bool}
    (implies : ∀ member ∈ members, left member → right member) {fresh : α}
    (listed : fresh ∈ members) (holds : right fresh) (fails : ¬ left fresh) :
    members.countP left < members.countP right := by
  induction members with
  | nil => simp at listed
  | cons first rest ih =>
      have later : ∀ member ∈ rest, left member → right member := fun member inRest =>
        implies member (List.mem_cons_of_mem _ inRest)
      have weak : rest.countP left ≤ rest.countP right := List.countP_mono_left later
      have head := implies first List.mem_cons_self
      rw [List.countP_cons, List.countP_cons]
      rcases List.mem_cons.mp listed with rfl | inRest
      · rw [if_neg fails, if_pos holds]
        omega
      · have strict := ih later inRest
        by_cases both : left first
        · rw [if_pos both, if_pos (head both)]
          omega
        · rw [if_neg both]
          omega

/-- A property of one more member has a count that is greater by one at most. -/
theorem List.countP_le_succ {α : Type*} {members : List α} (distinct : members.Nodup)
    {left right : α → Bool} (fresh : α)
    (implies : ∀ member ∈ members, right member → left member ∨ member = fresh) :
    members.countP right ≤ members.countP left + 1 := by
  induction members with
  | nil => simp
  | cons first rest ih =>
      obtain ⟨new, distinct⟩ := List.nodup_cons.mp distinct
      have later : ∀ member ∈ rest, right member → left member ∨ member = fresh :=
        fun member inRest => implies member (List.mem_cons_of_mem _ inRest)
      rw [List.countP_cons, List.countP_cons]
      by_cases same : first = fresh
      · have others : rest.countP right ≤ rest.countP left :=
          List.countP_mono_left fun member inRest holds =>
            (later member inRest holds).resolve_right fun equal =>
              new (same.trans equal.symm ▸ inRest)
        split_ifs <;> omega
      · have bounded := ih distinct later
        have head : right first → left first := fun holds =>
          (implies first List.mem_cons_self holds).resolve_right same
        by_cases holds : right first
        · rw [if_pos holds, if_pos (head holds)]
          omega
        · rw [if_neg holds]
          omega

/-- More than half of the members have a property. -/
def Majority {α : Type*} (members : List α) (property : α → Prop) : Prop :=
  ∃ chosen : List α, chosen.Nodup ∧ chosen ⊆ members ∧ (∀ member ∈ chosen, property member) ∧
    members.length / 2 < chosen.length

namespace Majority

variable {α : Type*} {members : List α} {left right : α → Prop}

theorem mono (majority : Majority members left) (implies : ∀ member, left member → right member) :
    Majority members right := by
  obtain ⟨chosen, distinct, inside, holds, many⟩ := majority
  exact ⟨chosen, distinct, inside, fun member chosenMember =>
    implies member (holds member chosenMember), many⟩

/-- What all members have is had by a majority. -/
theorem of_forall (distinct : members.Nodup) (nonempty : members ≠ [])
    (all : ∀ member ∈ members, left member) : Majority members left := by
  have positive := List.length_pos_of_ne_nil nonempty
  exact ⟨members, distinct, List.Subset.refl members, all, Nat.div_lt_self positive (by omega)⟩

/-- Two majorities have a common member. -/
theorem overlap (first : Majority members left) (second : Majority members right) :
    ∃ member ∈ members, left member ∧ right member := by
  obtain ⟨firstChosen, firstDistinct, firstInside, firstHolds, firstMany⟩ := first
  obtain ⟨secondChosen, secondDistinct, secondInside, secondHolds, secondMany⟩ := second
  by_contra apart
  push Not at apart
  have disjoint : firstChosen.Disjoint secondChosen := fun member inFirst inSecond =>
    apart member (firstInside inFirst) (firstHolds member inFirst) (secondHolds member inSecond)
  have distinct := firstDistinct.append secondDistinct disjoint
  have fits : (firstChosen ++ secondChosen).length ≤ members.length :=
    (List.subperm_of_subset distinct (List.append_subset.mpr ⟨firstInside, secondInside⟩)).length_le
  rw [List.length_append] at fits
  omega

/-- Without repetitions a majority is a matter of counting. -/
theorem iff_countP (distinct : members.Nodup) [DecidablePred left] :
    Majority members left ↔ members.length / 2 < members.countP left := by
  rw [List.countP_eq_length_filter]
  constructor
  · rintro ⟨chosen, chosenDistinct, inside, holds, many⟩
    have kept : chosen ⊆ members.filter left := fun member chosenMember =>
      List.mem_filter.mpr ⟨inside chosenMember, decide_eq_true (holds member chosenMember)⟩
    exact Nat.lt_of_lt_of_le many (List.subperm_of_subset chosenDistinct kept).length_le
  · intro many
    exact ⟨members.filter left, distinct.filter _, List.filter_subset_self _,
      fun member kept => of_decide_eq_true (List.mem_filter.mp kept).2, many⟩

end Majority
