import Mathlib.Data.List.Basic

/-!
# First occurrences

The elements of a list that are the first ones with their key, when some keys have been seen
before.
-/

namespace Occurrences

variable {α κ : Type*} [DecidableEq κ] {key : α → κ} {seen other : List κ} {new : κ}

/-- The first elements with keys that have not been seen. -/
def first (key : α → κ) : List κ → List α → List α
  | _, [] => []
  | seen, element :: rest =>
      if key element ∈ seen then first key seen rest
      else element :: first key (key element :: seen) rest

/-- Only which keys have been seen matters. -/
theorem first_congr {elements : List α} (same : ∀ name, name ∈ seen ↔ name ∈ other) :
    first key seen elements = first key other elements := by
  induction elements generalizing seen other with
  | nil => rfl
  | cons element rest ih =>
      simp only [first, same]
      split_ifs
      · exact ih same
      · exact congrArg (element :: ·) (ih fun name => by simp [same])

/-- A key that does not occur may have been seen or not. -/
theorem first_cons_of_absent {elements : List α}
    (absent : ∀ element ∈ elements, key element ≠ new) :
    first key (new :: seen) elements = first key seen elements := by
  induction elements generalizing seen with
  | nil => rfl
  | cons element rest ih =>
      obtain ⟨other, absent⟩ := List.forall_mem_cons.mp absent
      simp only [first, List.mem_cons, other, false_or]
      split_ifs
      · exact ih absent
      · have swapped : first key (key element :: new :: seen) rest =
            first key (new :: key element :: seen) rest :=
          first_congr fun name => by simp [or_left_comm]
        rw [swapped, ih absent]

theorem notMem_of_first {elements : List α} {element : α}
    (kept : element ∈ first key seen elements) : key element ∉ seen := by
  induction elements generalizing seen with
  | nil => simp [first] at kept
  | cons head rest ih =>
      simp only [first] at kept
      split_ifs at kept with known
      · exact ih kept
      · rcases List.mem_cons.mp kept with rfl | later
        · exact known
        · exact fun member => ih later (List.mem_cons_of_mem _ member)

/-- A key that occurs and has not been seen is kept. -/
theorem exists_first {elements : List α} (unseen : new ∉ seen)
    (occurs : ∃ element ∈ elements, key element = new) :
    ∃ element ∈ first key seen elements, key element = new := by
  induction elements generalizing seen with
  | nil => simp at occurs
  | cons head rest ih =>
      by_cases same : key head = new
      · exact ⟨head, by simp [first, same, unseen], same⟩
      · obtain ⟨element, member, found⟩ := occurs
        have later : ∃ element ∈ rest, key element = new := by
          refine ⟨element, (List.mem_cons.mp member).resolve_left ?_, found⟩
          rintro rfl
          exact same found
        simp only [first]
        split_ifs
        · exact ih unseen later
        · obtain ⟨kept, inRest, keptKey⟩ :=
            ih (List.not_mem_cons_of_ne_of_not_mem (Ne.symm same) unseen) later
          exact ⟨kept, List.mem_cons_of_mem _ inRest, keptKey⟩

/-- Having seen one more key makes no difference exactly when it does not occur, or has been seen
anyway. -/
theorem first_cons_eq_iff {elements : List α} :
    first key (new :: seen) elements = first key seen elements ↔
      ∀ element ∈ elements, key element = new → new ∈ seen := by
  constructor
  · intro same element member found
    by_contra unseen
    obtain ⟨kept, inFirst, keptKey⟩ := exists_first unseen ⟨element, member, found⟩
    rw [← same] at inFirst
    exact notMem_of_first inFirst (by simp [keptKey])
  · intro harmless
    by_cases known : new ∈ seen
    · refine first_congr fun name => ?_
      simp only [List.mem_cons, or_iff_right_iff_imp]
      rintro rfl
      exact known
    · exact first_cons_of_absent fun element member found =>
        known (harmless element member found)

end Occurrences
