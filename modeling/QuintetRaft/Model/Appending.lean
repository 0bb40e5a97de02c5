import QuintetRaft.Library.Logs
import QuintetRaft.Model.IdentityLeader

/-!
# Append requests and logs

A request built from a leader's log carries a slice of it.  On a log that matches the leader's,
the follower's scan of terms brings the log up to the end of that slice.
-/

namespace Quintet

/-- The request carries entries of a log from the index after `prevLogIdx` on. -/
structure Carries (log : List LogEntry) (msg : AppendEntriesMessage) : Prop where
  /-- The log has the previous entry in the term of the request. -/
  previous : termAt log msg.prevLogIdx = some msg.prevLogTerm
  /-- The entries follow the previous one in the log. -/
  slice : msg.logEntries <+: log.drop (msg.prevLogIdx + 1)

/-- Number of log entries a request speaks about: those before its entries, and its entries. -/
def AppendEntriesMessage.reach (msg : AppendEntriesMessage) : Nat :=
  msg.prevLogIdx + 1 + msg.logEntries.length

variable {log longer entries : List LogEntry} {msg : AppendEntriesMessage} {idx term : Nat}

theorem termAt_eq_some :
    termAt entries idx = some term ↔ ∃ entry, entries[idx]? = some entry ∧ entry.term = term := by
  simp [termAt]

theorem lt_length_of_termAt (present : termAt entries idx = some term) : idx < entries.length := by
  obtain ⟨entry, found, -⟩ := termAt_eq_some.mp present
  exact (List.getElem?_eq_some_iff.mp found).1

theorem getElem?_of_prefix {entry : LogEntry} (begins : log <+: longer)
    (found : log[idx]? = some entry) : longer[idx]? = some entry := by
  obtain ⟨inside, rfl⟩ := List.getElem?_eq_some_iff.mp found
  exact List.prefix_iff_getElem?.mp begins idx inside

theorem termAt_of_prefix (begins : log <+: longer) (present : termAt log idx = some term) :
    termAt longer idx = some term := by
  obtain ⟨entry, found, sameTerm⟩ := termAt_eq_some.mp present
  exact termAt_eq_some.mpr ⟨entry, getElem?_of_prefix begins found, sameTerm⟩

namespace Carries

theorem mono (carries : Carries log msg) (begins : log <+: longer) : Carries longer msg where
  previous := termAt_of_prefix begins carries.previous
  slice := carries.slice.trans (begins.drop _)

theorem reach_le (carries : Carries log msg) : msg.reach ≤ log.length := by
  have past := lt_length_of_termAt carries.previous
  have fits := carries.slice.length_le
  rw [List.length_drop] at fits
  unfold AppendEntriesMessage.reach
  omega

/-- The part of the log before some of the entries, followed by the rest of them. -/
theorem take_append_drop (carries : Carries log msg) {count : Nat}
    (bounded : count ≤ msg.logEntries.length) :
    log.take (msg.prevLogIdx + 1 + count) ++ msg.logEntries.drop count = log.take msg.reach := by
  have rest : msg.logEntries.drop count =
      (log.drop (msg.prevLogIdx + 1 + count)).take (msg.logEntries.length - count) := by
    conv_lhs => rw [List.prefix_iff_eq_take.mp carries.slice]
    rw [List.drop_take, List.drop_drop]
  rw [rest, ← List.take_add]
  congr 1
  unfold AppendEntriesMessage.reach
  omega

end Carries

/-- A message is built from the leader's whole log after `start`. -/
theorem createAppendEntriesMessage_eq_some {info : ServerInfo} {srv : Server} {start : Nat}
    (built : srv.createAppendEntriesMessage info start = some msg) (positive : 1 ≤ start) :
    Carries srv.state.entries msg ∧ msg.reach = srv.state.entries.length ∧
      msg.prevLogIdx + 1 = start ∧ msg.term = srv.state.currentTerm ∧
      msg.leaderId = info.localId ∧ msg.commitIdx = srv.state.commitIdx := by
  obtain ⟨prevLogTerm, previous, rfl⟩ := Option.map_eq_some_iff.mp built
  have past := lt_length_of_termAt previous
  have next : start - 1 + 1 = start := Nat.sub_add_cancel positive
  refine ⟨⟨previous, ?_⟩, ?_, next, rfl, rfl, rfl⟩
  · rw [next]
  · simp only [AppendEntriesMessage.reach, List.length_drop]
    omega

/-! ## The follower's scan -/

theorem matchingEntries_le (start : Nat) (incoming : List LogEntry) :
    matchingEntries entries start incoming ≤ incoming.length := by
  induction incoming generalizing start with
  | nil => exact Nat.le_refl 0
  | cons entry rest ih =>
      simp only [matchingEntries, List.length_cons]
      split_ifs
      · exact Nat.succ_le_succ (ih (start + 1))
      · exact Nat.zero_le _

/-- The scan passes all positions up to the first at which the terms differ or an entry is
missing. -/
theorem le_matchingEntries_iff {start count : Nat} {incoming : List LogEntry} :
    count ≤ matchingEntries entries start incoming ↔
      count ≤ incoming.length ∧
        ∀ idx < count, termAt entries (start + idx) = termAt incoming idx := by
  induction incoming generalizing start count with
  | nil =>
      rw [matchingEntries, List.length_nil, Nat.le_zero]
      refine ⟨?_, And.left⟩
      rintro rfl
      exact ⟨rfl, fun _ impossible => absurd impossible (Nat.not_lt_zero _)⟩
  | cons entry rest ih =>
      cases count with
      | zero => simp
      | succ count =>
          have head : termAt (entry :: rest) 0 = some entry.term := rfl
          have tail : ∀ idx, termAt (entry :: rest) (idx + 1) = termAt rest idx := fun _ => rfl
          simp only [matchingEntries, List.length_cons, Nat.forall_lt_succ_left', Nat.add_zero,
            head, tail]
          split_ifs with same
          · simp [ih, same, Nat.add_assoc, Nat.add_comm 1]
          · simp [same]

/-- On a matching log the scan finds how far the log agrees with the leader's. -/
theorem matchingEntries_spec (matching : Logs.Matching LogEntry.term entries log) {start : Nat}
    {incoming : List LogEntry} (slice : incoming <+: log.drop start)
    (agreed : entries.take start = log.take start) :
    entries.take (start + matchingEntries entries start incoming) =
        log.take (start + matchingEntries entries start incoming) ∧
      (matchingEntries entries start incoming < incoming.length →
        ¬ log.take (start + incoming.length) <+: entries) := by
  induction incoming generalizing start with
  | nil => simpa [matchingEntries] using agreed
  | cons entry rest ih =>
      obtain ⟨head, later⟩ : log[start]? = some entry ∧ rest <+: log.drop (start + 1) := by
        obtain ⟨tail, split⟩ := slice
        refine ⟨?_, tail, ?_⟩
        · rw [← List.head?_drop, ← split]
          rfl
        · rw [← List.tail_drop, ← split]
          rfl
      simp only [matchingEntries]
      split_ifs with same
      · obtain ⟨found, present, sameTerm⟩ := termAt_eq_some.mp same
        have further := matching start found entry present head sameTerm
        obtain ⟨equal, conflict⟩ := ih later further
        rw [List.length_cons, Nat.add_comm (matchingEntries _ _ _) 1,
          Nat.add_comm rest.length 1, ← Nat.add_assoc, ← Nat.add_assoc]
        exact ⟨equal, fun short => conflict (by omega)⟩
      · refine ⟨by simpa using agreed, fun _ begins => same ?_⟩
        have inLog : (log.take (start + (rest.length + 1)))[start]? = some entry := by
          rw [List.getElem?_take_of_lt (by omega), head]
        exact termAt_eq_some.mpr ⟨entry, getElem?_of_prefix begins inLog, rfl⟩

/-- Handling a request that passes the log test brings a matching log up to the slice of the
leader's log the request speaks about. -/
theorem replicate_replaces {state : ServerState}
    (matching : Logs.Matching LogEntry.term state.entries log) (carries : Carries log msg)
    (passes : termAt state.entries msg.prevLogIdx = some msg.prevLogTerm) :
    Logs.Replaces (log.take msg.reach) state.entries (state.replicate msg).entries := by
  have agreed : state.entries.take (msg.prevLogIdx + 1) = log.take (msg.prevLogIdx + 1) := by
    obtain ⟨mine, present, myTerm⟩ := termAt_eq_some.mp passes
    obtain ⟨other, found, otherTerm⟩ := termAt_eq_some.mp carries.previous
    exact matching _ mine other present found (myTerm.trans otherTerm.symm)
  obtain ⟨equal, conflict⟩ := matchingEntries_spec matching carries.slice agreed
  have bounded : matchingEntries state.entries (msg.prevLogIdx + 1) msg.logEntries ≤
      msg.logEntries.length := matchingEntries_le _ _
  rw [ServerState.replicate_entries]
  dsimp only
  split_ifs with short
  · refine .inr ⟨conflict (by omega), ?_⟩
    rw [Nat.add_right_comm, equal]
    exact carries.take_append_drop bounded
  · rw [not_not.mp short] at equal
    refine .inl ⟨?_, rfl⟩
    rw [AppendEntriesMessage.reach, ← equal]
    exact List.take_prefix _ _

/-! ## The new log -/

section Replicate

variable {state : ServerState}

/-- Position `idx` of the request agrees with the log. -/
def AgreesAt (entries : List LogEntry) (msg : AppendEntriesMessage) (idx : Nat) : Prop :=
  termAt entries (msg.prevLogIdx + 1 + idx) = termAt msg.logEntries idx

instance (idx : Nat) : Decidable (AgreesAt entries msg idx) := inferInstanceAs (Decidable (_ = _))

theorem termAt_eq_none {idx : Nat} : termAt entries idx = none ↔ entries.length ≤ idx := by
  simp [termAt]

theorem termAt_append_left {rest : List LogEntry} {idx : Nat} (inside : idx < entries.length) :
    termAt (entries ++ rest) idx = termAt entries idx := by
  simp [termAt, List.getElem?_append_left inside]

theorem termAt_append_right {rest : List LogEntry} {idx : Nat} (past : entries.length ≤ idx) :
    termAt (entries ++ rest) idx = termAt rest (idx - entries.length) := by
  simp [termAt, List.getElem?_append_right past]

/-- The part of the log that the scan has passed is inside the log. -/
theorem passed_le (inside : msg.prevLogIdx < entries.length) {count : Nat}
    (passed : count ≤ matchingEntries entries (msg.prevLogIdx + 1) msg.logEntries) :
    msg.prevLogIdx + 1 + count ≤ entries.length := by
  cases count with
  | zero => exact inside
  | succ count =>
      obtain ⟨short, agrees⟩ := le_matchingEntries_iff.mp passed
      have same := agrees count (Nat.lt_succ_self count)
      have present : termAt msg.logEntries count ≠ none := by
        rw [Ne, termAt_eq_none]
        omega
      rw [← same, Ne, termAt_eq_none] at present
      omega

/-- A request that agrees with the log at all its positions changes nothing. -/
theorem replicate_of_agrees
    (agrees : ∀ idx < msg.logEntries.length, AgreesAt state.entries msg idx) :
    (state.replicate msg).entries = state.entries := by
  have passed := le_matchingEntries_iff.mpr ⟨Nat.le_refl _, agrees⟩
  have all := Nat.le_antisymm (matchingEntries_le _ _) passed
  rw [ServerState.replicate_entries]
  exact if_neg (not_not.mpr all)

/-- Otherwise the log is cut where the scan stops, and ends with the entries of the request. -/
theorem replicate_of_conflict
    (conflict : ¬ ∀ idx < msg.logEntries.length, AgreesAt state.entries msg idx) :
    (state.replicate msg).entries =
        state.entries.take (msg.prevLogIdx + 1 +
          matchingEntries state.entries (msg.prevLogIdx + 1) msg.logEntries) ++
        msg.logEntries.drop (matchingEntries state.entries (msg.prevLogIdx + 1) msg.logEntries) ∧
      matchingEntries state.entries (msg.prevLogIdx + 1) msg.logEntries <
        msg.logEntries.length := by
  have short : matchingEntries state.entries (msg.prevLogIdx + 1) msg.logEntries <
      msg.logEntries.length := by
    refine lt_of_le_of_ne (matchingEntries_le _ _) fun all => conflict ?_
    exact (le_matchingEntries_iff.mp all.ge).2
  refine ⟨?_, short⟩
  rw [ServerState.replicate_entries]
  dsimp only
  rw [if_pos short.ne, Nat.add_right_comm]

/-- What an append request makes of a log that has its previous entry. -/
structure Appended (entries : List LogEntry) (msg : AppendEntriesMessage)
    (after : List LogEntry) : Prop where
  /-- The log reaches at least to the end of the request. -/
  long : msg.reach ≤ after.length
  /-- It has the terms of the request at all positions of it. -/
  terms : ∀ idx < msg.logEntries.length, AgreesAt after msg idx
  /-- Everything before the first conflict is kept. -/
  keeps : ∀ count ≤ msg.logEntries.length, (∀ idx < count, AgreesAt entries msg idx) →
    after.take (msg.prevLogIdx + 1 + count) = entries.take (msg.prevLogIdx + 1 + count)
  /-- Without a conflict and without a missing entry the log stays as it is. -/
  same : (∀ idx < msg.logEntries.length, AgreesAt entries msg idx) → after = entries
  /-- Otherwise the log ends with the last entry of the request. -/
  ends : (¬ ∀ idx < msg.logEntries.length, AgreesAt entries msg idx) →
    after.length = msg.reach ∧ after.getLast? = msg.logEntries.getLast?
  /-- The sentinel stays. -/
  first : after[0]? = entries[0]?

theorem appended_of_agrees (inside : msg.prevLogIdx < entries.length)
    (agrees : ∀ idx < msg.logEntries.length, AgreesAt entries msg idx) :
    Appended entries msg entries where
  long := passed_le inside (le_matchingEntries_iff.mpr ⟨Nat.le_refl _, agrees⟩)
  terms := agrees
  keeps _ _ _ := rfl
  same _ := rfl
  ends conflict := absurd agrees conflict
  first := rfl

theorem appended_of_conflict (inside : msg.prevLogIdx < entries.length) {count : Nat}
    (passed : count = matchingEntries entries (msg.prevLogIdx + 1) msg.logEntries)
    (short : count < msg.logEntries.length) :
    Appended entries msg
      (entries.take (msg.prevLogIdx + 1 + count) ++ msg.logEntries.drop count) := by
  have within := passed_le inside passed.le
  obtain ⟨-, agrees⟩ := le_matchingEntries_iff.mp passed.le
  have cut : (entries.take (msg.prevLogIdx + 1 + count)).length = msg.prevLogIdx + 1 + count :=
    List.length_take_of_le within
  have length : (entries.take (msg.prevLogIdx + 1 + count) ++
      msg.logEntries.drop count).length = msg.reach := by
    rw [List.length_append, cut, List.length_drop, AppendEntriesMessage.reach]
    omega
  refine
    { long := length.ge
      terms := fun idx inMessage => ?_
      keeps := fun other _ agreesTo => ?_
      same := fun all => ?_
      ends := fun _ => ⟨length, ?_⟩
      first := ?_ }
  · by_cases early : idx < count
    · rw [AgreesAt, termAt_append_left (by omega), termAt, List.getElem?_take_of_lt (by omega)]
      exact agrees idx early
    · rw [AgreesAt, termAt_append_right (by omega), cut, termAt, List.getElem?_drop]
      rw [show count + (msg.prevLogIdx + 1 + idx - (msg.prevLogIdx + 1 + count)) = idx by omega]
      rfl
  · have upTo : other ≤ count := by
      rw [passed]
      exact le_matchingEntries_iff.mpr ⟨by omega, agreesTo⟩
    rw [List.take_append_of_le_length (by omega), List.take_take, Nat.min_eq_left (by omega)]
  · have all' := le_matchingEntries_iff.mpr ⟨Nat.le_refl _, all⟩
    omega
  · rw [List.getLast?_append_of_ne_nil _ (by simp; omega), List.getLast?_drop, if_neg (by omega)]
  · rw [List.getElem?_append_left (by omega), List.getElem?_take_of_lt (by omega)]

theorem replicate_appended (inside : msg.prevLogIdx < state.entries.length) :
    Appended state.entries msg (state.replicate msg).entries := by
  by_cases agrees : ∀ idx < msg.logEntries.length, AgreesAt state.entries msg idx
  · rw [replicate_of_agrees agrees]
    exact appended_of_agrees inside agrees
  · obtain ⟨equal, short⟩ := replicate_of_conflict agrees
    rw [equal]
    exact appended_of_conflict inside rfl short

end Replicate

end Quintet
