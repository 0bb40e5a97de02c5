import QuintetRaft.Library.Leadership

/-!
# Leaders have what was chosen

A beginning of the record of a term is chosen when it ends with an entry of the term and a majority
has acknowledged it.  The majority that elects a later leader meets that majority in a voter whose
log had the beginning, and the leader's log was at least as recent.  Hence all chosen beginnings are
beginnings of one another.
-/

namespace Leadership

variable {S E : Type*} {termOf : E → ℕ} {members : List S} {root log newer entries : List E}
  {history before after : History S E} {term count bound : ℕ}

/-- A majority has acknowledged a beginning of a record that ends with an entry of its term. -/
structure History.Chosen (members : List S) (history : History S E) (term count : ℕ) : Prop where
  /-- The term has a leader. -/
  led : history.leader term ≠ none
  /-- The beginning has an entry that its leader has appended. -/
  own : (history.base term).length < count
  /-- It is a beginning of the record. -/
  inside : count ≤ (history.record term).length
  /-- A majority has acknowledged it. -/
  acknowledged : Majority members fun server => count ≤ history.acked server term

/-- Some entries are what all logs begin with, or begin something that was chosen. -/
def History.Committed (members : List S) (root : List E) (history : History S E) (bound : ℕ)
    (entries : List E) : Prop :=
  entries <+: root ∨ ∃ term count, term ≤ bound ∧ history.Chosen members term count ∧
    entries <+: (history.record term).take count

/-! ## The last term of a log -/

theorem exists_last (termOf : E → ℕ) (nonempty : log ≠ []) :
    ∃ entry, log[log.length - 1]? = some entry ∧ termOf entry = lastTerm termOf log := by
  refine ⟨log.getLast nonempty, ?_, ?_⟩
  · rw [← List.getLast?_eq_getElem?, List.getLast?_eq_getLast_of_ne_nil nonempty]
  · simp [lastTerm, List.getLast?_eq_getLast_of_ne_nil nonempty]

namespace History.Rooted

/-- A log is a beginning of the record of its last term. -/
theorem prefix_record (rooted : history.Rooted termOf log) (nonempty : log ≠ []) :
    log <+: history.record (lastTerm termOf log) := by
  obtain ⟨entry, found, last⟩ := exists_last termOf nonempty
  have whole := rooted (log.length - 1) entry found
  rwa [last, Nat.sub_add_cancel (List.length_pos_of_ne_nil nonempty), List.take_length] at whole

/-- No entry of a log is younger than its last one. -/
theorem le_lastTerm (rooted : history.Rooted termOf log)
    (sound : Sound termOf members root history) (oldest : ∀ entry ∈ root, termOf entry = 0)
    {entry : E} (member : entry ∈ log) : termOf entry ≤ lastTerm termOf log :=
  sound.record_le oldest _ entry
    ((rooted.prefix_record (List.ne_nil_of_mem member)).subset member)

end History.Rooted

/-! ## What was chosen -/

namespace History.Chosen

/-- Later moments know what was chosen. -/
theorem mono (chosen : before.Chosen members term count) (grows : Extends before after) :
    after.Chosen members term count := by
  obtain ⟨leader, leads⟩ := Option.ne_none_iff_exists'.mp chosen.led
  exact
    { led := by simp [grows.leader term leader leads]
      own := by rw [grows.base term leader leads]; exact chosen.own
      inside := chosen.inside.trans (grows.record term).length_le
      acknowledged := chosen.acknowledged.mono fun server acknowledged =>
        acknowledged.trans (grows.acked server term) }

/-- A chosen beginning ends with an entry of its term. -/
theorem exists_own (chosen : history.Chosen members term count)
    (sound : Sound termOf members root history) :
    ∃ entry ∈ (history.record term).take count, termOf entry = term := by
  obtain ⟨leader, leads⟩ := Option.ne_none_iff_exists'.mp chosen.led
  have own := chosen.own
  have inside : count - 1 < (history.record term).length := by
    have := chosen.inside
    omega
  have found := List.getElem?_eq_getElem inside
  refine ⟨(history.record term)[count - 1], ?_, ?_⟩
  · refine List.mem_of_getElem? (i := count - 1) ?_
    rw [List.getElem?_take_of_lt (by omega), found]
  · exact (sound.offices term leader leads).own (count - 1) _ found (by omega)

/-- A log at least as recent as one that has the chosen beginning has it too, when the leaders in
between had it. -/
theorem dominates (chosen : history.Chosen members term count)
    (sound : Sound termOf members root history) (oldest : ∀ entry ∈ root, termOf entry = 0)
    (rooted : history.Rooted termOf log) (rootedNewer : history.Rooted termOf newer)
    (nonempty : newer ≠ []) (held : (history.record term).take count <+: log)
    (recent : Recent termOf log newer)
    (later : ∀ between, term < between → between ≤ lastTerm termOf newer →
      history.leader between ≠ none → (history.record term).take count <+: history.base between) :
    (history.record term).take count <+: newer := by
  obtain ⟨entry, member, own⟩ := chosen.exists_own sound
  have fromOwn : term ≤ lastTerm termOf log :=
    own ▸ rooted.le_lastTerm sound oldest (held.subset member)
  have upTo : term ≤ lastTerm termOf newer := by
    rcases recent with younger | ⟨same, -⟩
    · omega
    · omega
  have begins := rootedNewer.prefix_record nonempty
  rcases Nat.lt_or_eq_of_le upTo with younger | same
  · -- the last entry of the newer log comes from a later leader
    have led : history.leader (lastTerm termOf newer) ≠ none := fun unled => by
      rw [sound.vacant _ (by omega) unled, List.prefix_nil] at begins
      exact nonempty begins
    obtain ⟨leader, leads⟩ := Option.ne_none_iff_exists'.mp led
    have office := sound.offices _ leader leads
    have inBase := later _ younger (Nat.le_refl _) led
    rcases List.prefix_or_prefix_of_prefix (inBase.trans office.extended) begins with
      shorter | longer
    · exact shorter
    · obtain ⟨last, found, lastOwn⟩ := exists_last termOf nonempty
      have inherited := (longer.trans inBase).subset (List.mem_of_getElem? found)
      have older := office.older last inherited
      omega
  · -- both logs are beginnings of the same record
    obtain ⟨-, shorter⟩ : lastTerm termOf log = lastTerm termOf newer ∧
        log.length ≤ newer.length := by
      rcases recent with younger | both
      · omega
      · exact both
    rw [← same] at begins
    exact List.prefix_of_prefix_length_le (List.take_prefix _ _) begins
      (held.length_le.trans shorter)

/-- Every later leader took office with what was chosen. -/
theorem prefix_base (chosen : history.Chosen members term count)
    (sound : Sound termOf members root history) (oldest : ∀ entry ∈ root, termOf entry = 0)
    (nonempty : root ≠ []) {later : ℕ} (past : term < later)
    (led : history.leader later ≠ none) :
    (history.record term).take count <+: history.base later := by
  induction later using Nat.strong_induction_on with
  | _ later ih =>
    obtain ⟨leader, leads⟩ := Option.ne_none_iff_exists'.mp led
    have office := sound.offices later leader leads
    obtain ⟨voter, -, acknowledged, log, cast⟩ := chosen.acknowledged.overlap office.elected
    obtain ⟨-, rooted, newer, stood, recent⟩ := sound.ballots voter later leader log cast
    obtain rfl : newer = history.base later :=
      Option.some.inj (stood.symm.trans office.stood)
    have held : (history.record term).take count <+: log := by
      rcases sound.carried voter later leader log cast term count past acknowledged with
        held | ⟨between, after, below, betweenLed, without⟩
      · exact held
      · exact absurd (ih between below after betweenLed) without
    have begun : history.base later ≠ [] := fun empty =>
      nonempty (List.prefix_nil.mp (empty ▸ office.begins))
    have rootedBase : history.Rooted termOf (history.base later) := by
      rw [List.prefix_iff_eq_take.mp office.extended]
      exact (sound.records later).take _
    refine chosen.dominates sound oldest rooted rootedBase begun held recent
      fun between after upTo => ?_
    obtain ⟨last, found, lastOwn⟩ := exists_last termOf begun
    have older := office.older last (List.mem_of_getElem? found)
    exact ih between (by omega) after

/-- The leaders from its term on have what was chosen. -/
theorem prefix_record (chosen : history.Chosen members term count)
    (sound : Sound termOf members root history) (oldest : ∀ entry ∈ root, termOf entry = 0)
    (nonempty : root ≠ []) {later : ℕ} (upTo : term ≤ later)
    (led : history.leader later ≠ none) :
    (history.record term).take count <+: history.record later := by
  rcases Nat.lt_or_eq_of_le upTo with past | rfl
  · obtain ⟨leader, leads⟩ := Option.ne_none_iff_exists'.mp led
    exact (chosen.prefix_base sound oldest nonempty past led).trans
      (sound.offices later leader leads).extended
  · exact List.take_prefix _ _

/-- The majority that has acknowledged what was chosen still has it. -/
theorem held (chosen : history.Chosen members term count)
    (sound : Sound termOf members root history) (oldest : ∀ entry ∈ root, termOf entry = 0)
    (nonempty : root ≠ []) :
    Majority members fun server => (history.record term).take count <+: history.log server :=
  chosen.acknowledged.mono fun server acknowledged => by
    rcases sound.kept server term count acknowledged with
      held | ⟨between, past, -, led, without⟩
    · exact held
    · exact absurd (chosen.prefix_base sound oldest nonempty past led) without

end History.Chosen

/-! ## What is committed -/

namespace History.Committed

theorem mono (committed : before.Committed members root bound entries)
    (grows : Extends before after) {bound' : ℕ} (wider : bound ≤ bound') :
    after.Committed members root bound' entries := by
  rcases committed with first | ⟨term, count, upTo, chosen, begins⟩
  · exact .inl first
  · refine .inr ⟨term, count, upTo.trans wider, chosen.mono grows, ?_⟩
    rwa [grows.take_record chosen.inside]

/-- Beginnings of what is committed are committed. -/
theorem of_prefix (committed : history.Committed members root bound entries) {shorter : List E}
    (begins : shorter <+: entries) : history.Committed members root bound shorter := by
  rcases committed with first | ⟨term, count, upTo, chosen, whole⟩
  · exact .inl (begins.trans first)
  · exact .inr ⟨term, count, upTo, chosen, begins.trans whole⟩

/-- Every leader from the bound on has what is committed. -/
theorem prefix_record (committed : history.Committed members root bound entries)
    (sound : Sound termOf members root history) (oldest : ∀ entry ∈ root, termOf entry = 0)
    (nonempty : root ≠ []) {later : ℕ} (upTo : bound ≤ later)
    (led : history.leader later ≠ none) : entries <+: history.record later := by
  rcases committed with first | ⟨term, count, below, chosen, begins⟩
  · obtain ⟨leader, leads⟩ := Option.ne_none_iff_exists'.mp led
    have office := sound.offices later leader leads
    exact first.trans (office.begins.trans office.extended)
  · exact begins.trans (chosen.prefix_record sound oldest nonempty (below.trans upTo) led)

/-- A majority has what is committed. -/
theorem held (committed : history.Committed members root bound entries)
    (sound : Sound termOf members root history) (oldest : ∀ entry ∈ root, termOf entry = 0)
    (nonempty : root ≠ []) (distinct : members.Nodup) (some : members ≠ []) :
    Majority members fun server => entries <+: history.log server := by
  rcases committed with first | ⟨term, count, -, chosen, begins⟩
  · exact .of_forall distinct some fun server _ => first.trans (sound.begins server)
  · exact (chosen.held sound oldest nonempty).mono fun server held => begins.trans held

/-- Of two lists of committed entries one begins the other. -/
theorem comparable {left right : List E} {bound' : ℕ}
    (first : history.Committed members root bound left)
    (second : history.Committed members root bound' right)
    (sound : Sound termOf members root history) (oldest : ∀ entry ∈ root, termOf entry = 0)
    (nonempty : root ≠ []) : left <+: right ∨ right <+: left := by
  rcases first with inRoot | ⟨term, count, -, chosen, begins⟩
  · rcases second with inRoot' | ⟨term', count', -, chosen', begins'⟩
    · exact List.prefix_or_prefix_of_prefix inRoot inRoot'
    · have begun : history.Committed members root term' left := .inl inRoot
      exact List.prefix_or_prefix_of_prefix
        (begun.prefix_record sound oldest nonempty (Nat.le_refl _) chosen'.led)
        (begins'.trans (List.take_prefix _ _))
  · have inRecord := begins.trans (List.take_prefix _ _)
    rcases second with inRoot' | ⟨term', count', -, chosen', begins'⟩
    · have begun : history.Committed members root term right := .inl inRoot'
      exact List.prefix_or_prefix_of_prefix inRecord
        (begun.prefix_record sound oldest nonempty (Nat.le_refl _) chosen.led)
    · have inRecord' := begins'.trans (List.take_prefix _ _)
      rcases Nat.le_total term term' with upTo | upTo
      · exact List.prefix_or_prefix_of_prefix
          (begins.trans (chosen.prefix_record sound oldest nonempty upTo chosen'.led)) inRecord'
      · exact List.prefix_or_prefix_of_prefix inRecord
          (begins'.trans (chosen'.prefix_record sound oldest nonempty upTo chosen.led))

end History.Committed

end Leadership
