import Mathlib.Data.List.Infix

/-!
# Logs

Logs are lists of entries with terms.  A follower's log is brought up to a beginning of its
leader's log; logs match when an equal term at an index means an equal history up to it.
-/

namespace Logs

variable {E : Type*} {entries before after common record left right : List E} {count : ℕ}

/-! ## Bringing a log up to a list of entries -/

/-- The log is kept when it already begins with the entries, and replaced by them otherwise. -/
def Replaces (entries before after : List E) : Prop :=
  entries <+: before ∧ after = before ∨ ¬ entries <+: before ∧ after = entries

namespace Replaces

theorem begins (replaced : Replaces entries before after) : entries <+: after := by
  rcases replaced with ⟨already, rfl⟩ | ⟨-, rfl⟩
  · exact already
  · exact List.prefix_rfl

theorem eq_or_eq (replaced : Replaces entries before after) : after = before ∨ after = entries :=
  replaced.imp And.right And.right

/-- What a log shares with a record is not lost when it is brought up to a beginning of it. -/
theorem keeps (replaced : Replaces entries before after) (slice : entries <+: record)
    (inLog : common <+: before) (inRecord : common <+: record) : common <+: after := by
  rcases replaced with ⟨-, rfl⟩ | ⟨conflict, rfl⟩
  · exact inLog
  · rcases List.prefix_or_prefix_of_prefix inRecord slice with shorter | longer
    · exact shorter
    · exact absurd (longer.trans inLog) conflict

end Replaces

/-! ## Appending an entry -/

/-- An entry of a longer log is one of the log, or the new one. -/
theorem getElem?_concat {log : List E} {entry found : E} {idx : ℕ}
    (present : (log ++ [entry])[idx]? = some found) :
    log[idx]? = some found ∨ idx = log.length ∧ found = entry := by
  rw [List.getElem?_append] at present
  split_ifs at present with inside
  · exact .inl present
  · obtain ⟨short, last⟩ := List.getElem?_eq_some_iff.mp present
    rw [List.length_singleton] at short
    rw [List.getElem_singleton] at last
    exact .inr ⟨by omega, last.symm⟩

/-! ## The longest common beginning -/

/-- Length of the longest common beginning of two lists. -/
def commonLength [DecidableEq E] : List E → List E → ℕ
  | first :: left, second :: right => if first = second then commonLength left right + 1 else 0
  | _, _ => 0

theorem le_commonLength_iff [DecidableEq E] :
    count ≤ commonLength left right ↔ count ≤ left.length ∧ left.take count <+: right := by
  induction left generalizing right count with
  | nil =>
      simp only [commonLength, List.length_nil, List.take_nil, List.nil_prefix, and_true]
  | cons first left ih =>
      cases count with
      | zero => simp
      | succ count =>
          cases right with
          | nil => simp [commonLength]
          | cons second right =>
              by_cases same : first = second
              · simp [commonLength, same, ih, List.cons_prefix_cons]
              · simp [commonLength, same, List.cons_prefix_cons]

/-- The common beginning grows when common beginnings are kept. -/
theorem commonLength_mono [DecidableEq E] {left' right' : List E}
    (kept : ∀ common, common <+: left → common <+: right →
      common <+: left' ∧ common <+: right') :
    commonLength left right ≤ commonLength left' right' := by
  obtain ⟨inside, begins⟩ := le_commonLength_iff.mp (Nat.le_refl (commonLength left right))
  obtain ⟨inLeft, inRight⟩ := kept _ (List.take_prefix _ _) begins
  have long : (left.take (commonLength left right)).length = commonLength left right :=
    List.length_take_of_le inside
  rw [le_commonLength_iff]
  refine ⟨long ▸ inLeft.length_le, ?_⟩
  rw [List.prefix_iff_eq_take, long] at inLeft
  rwa [← inLeft]

/-! ## Matching logs -/

/-- Two logs with equal terms at an index are equal up to that index. -/
def Matching (term : E → ℕ) (left right : List E) : Prop :=
  ∀ (idx : ℕ) (first second : E), left[idx]? = some first → right[idx]? = some second →
    term first = term second → left.take (idx + 1) = right.take (idx + 1)

variable {term : E → ℕ}

theorem Matching.symm (matching : Matching term left right) : Matching term right left :=
  fun idx first second present found same =>
    (matching idx second first found present same.symm).symm

theorem matching_of_prefix (begins : left <+: right) : Matching term left right := by
  intro idx first second present _ _
  have inside : idx + 1 ≤ left.length := (List.getElem?_eq_some_iff.mp present).1
  rw [List.prefix_iff_eq_take.mp begins, List.take_take, Nat.min_eq_left inside]

end Logs
