import Mathlib.Logic.Relation
import QuintetRaft.Library.Logs
import QuintetRaft.Library.Majority

/-!
# Logs under the leaders of terms

Servers keep logs of entries with terms.  A term has at most one leader, elected by a majority none
of whose logs was more recent than its own.  A leader appends entries of its term, and others bring
their logs up to beginnings of its log, which they thereby acknowledge.  The history of all terms is
kept beside the present logs.
-/

namespace Leadership

variable {S E : Type*}

/-- The present terms and logs, and what has happened in every term. -/
structure History (S E : Type*) where
  /-- The greatest term a server has seen. -/
  current : S → ℕ
  /-- Its log. -/
  log : S → List E
  /-- The leader of a term. -/
  leader : ℕ → Option S
  /-- The log with which the leader of a term took office. -/
  base : ℕ → List E
  /-- The log of the leader of a term, as far as it got in that term. -/
  record : ℕ → List E
  /-- The log with which a server stood for election in a term. -/
  stood : S → ℕ → Option (List E)
  /-- A server voted in a term for a candidate when it had a log. -/
  ballot : S → ℕ → S → List E → Prop
  /-- How much of the record of a term a server has acknowledged. -/
  acked : S → ℕ → ℕ

/-- Term of the last entry. -/
def lastTerm (termOf : E → ℕ) (log : List E) : ℕ := (log.getLast?.map termOf).getD 0

/-- A log is at least as recent as another one. -/
def Recent (termOf : E → ℕ) (log newer : List E) : Prop :=
  lastTerm termOf log < lastTerm termOf newer ∨
    lastTerm termOf log = lastTerm termOf newer ∧ log.length ≤ newer.length

namespace History

/-- At the beginning all logs are equal, and term `0` stands for where they come from. -/
def init (root : List E) : History S E where
  current _ := 0
  log _ := root
  leader _ := none
  base _ := []
  record term := if term = 0 then root else []
  stood _ _ := none
  ballot _ _ _ _ := False
  acked _ _ := 0

/-- Every entry of a log comes, with all entries before it, from the leader of its term. -/
def Rooted (termOf : E → ℕ) (history : History S E) (log : List E) : Prop :=
  ∀ (idx : ℕ) (entry : E), log[idx]? = some entry →
    log.take (idx + 1) <+: history.record (termOf entry)

/-- A leader between two terms took office without the beginning of an earlier record. -/
def Lost (history : History S E) (term count bound : ℕ) : Prop :=
  ∃ between, term < between ∧ between < bound ∧ history.leader between ≠ none ∧
    ¬ (history.record term).take count <+: history.base between

theorem Rooted.take {termOf : E → ℕ} {history : History S E} {log : List E}
    (rooted : history.Rooted termOf log) (count : ℕ) : history.Rooted termOf (log.take count) := by
  intro idx entry found
  have short := (List.getElem?_eq_some_iff.mp found).1
  rw [List.length_take] at short
  rw [List.getElem?_take_of_lt (by omega)] at found
  rw [List.take_take, Nat.min_eq_left (by omega)]
  exact rooted idx entry found

/-- Logs made of beginnings of the same records match. -/
theorem Rooted.matching {termOf : E → ℕ} {history : History S E} {left right : List E}
    (rooted : history.Rooted termOf left) (other : history.Rooted termOf right) :
    Logs.Matching termOf left right := by
  intro idx first second present found same
  have long : (left.take (idx + 1)).length = idx + 1 :=
    List.length_take_of_le (List.getElem?_eq_some_iff.mp present).1
  have long' : (right.take (idx + 1)).length = idx + 1 :=
    List.length_take_of_le (List.getElem?_eq_some_iff.mp found).1
  have inRecord := other idx second found
  rw [← same] at inRecord
  have begins := List.prefix_of_prefix_length_le (rooted idx first present) inRecord
    (by rw [long, long'])
  exact begins.eq_of_length (by rw [long, long'])

/-! ## What can happen -/

section Operations

variable [DecidableEq S] (history : History S E)

/-- A server sees a term. -/
def adopt (server : S) (term : ℕ) : History S E :=
  { history with current := Function.update history.current server term }

/-- A server stands for election. -/
def stand (server : S) (term : ℕ) : History S E :=
  { history with
    stood := fun candidate opened =>
      if candidate = server ∧ opened = term then some (history.log server)
      else history.stood candidate opened }

/-- A server votes for a candidate. -/
def vote (server : S) (term : ℕ) (candidate : S) : History S E :=
  { history with
    ballot := fun voter opened other log => history.ballot voter opened other log ∨
      voter = server ∧ opened = term ∧ other = candidate ∧ log = history.log server }

/-- A candidate takes office. -/
def elect (server : S) (term : ℕ) : History S E :=
  { history with
    leader := Function.update history.leader term (some server)
    base := Function.update history.base term (history.log server)
    record := Function.update history.record term (history.log server)
    acked := fun other opened =>
      if other = server ∧ opened = term then (history.log server).length
      else history.acked other opened }

/-- A leader appends an entry to its log. -/
def append (server : S) (term : ℕ) (entry : E) : History S E :=
  { history with
    log := Function.update history.log server (history.log server ++ [entry])
    record := Function.update history.record term (history.record term ++ [entry])
    acked := fun other opened =>
      if other = server ∧ opened = term then (history.record term).length + 1
      else history.acked other opened }

/-- A server changes its log and acknowledges a beginning of the leader's. -/
def accept (server : S) (term count : ℕ) (log : List E) : History S E :=
  { history with
    log := Function.update history.log server log
    acked := fun follower opened =>
      if follower = server ∧ opened = term then max (history.acked server term) count
      else history.acked follower opened }

end Operations

end History

/-- The steps of a history. -/
inductive Step [DecidableEq S] (termOf : E → ℕ) (members : List S) (history : History S E) :
    History S E → Prop
  /-- Terms only grow. -/
  | adopt (server : S) (term : ℕ) (later : history.current server ≤ term) :
      Step termOf members history (history.adopt server term)
  /-- A server stands once, in a term without a leader. -/
  | stand (server : S) (term : ℕ) (positive : term ≠ 0)
      (present : history.current server = term) (vacant : history.leader term = none)
      (fresh : history.stood server term = none) :
      Step termOf members history (history.stand server term)
  /-- A vote is for a candidate with a log at least as recent as the voter's. -/
  | vote (server : S) (term : ℕ) (candidate : S) (newer : List E)
      (present : history.current server = term) (vacant : history.leader term = none)
      (stood : history.stood candidate term = some newer)
      (recent : Recent termOf (history.log server) newer) :
      Step termOf members history (history.vote server term candidate)
  /-- A leader has the votes of a majority. -/
  | elect (server : S) (term : ℕ)
      (present : history.current server = term) (vacant : history.leader term = none)
      (stood : history.stood server term ≠ none)
      (elected : Majority members fun voter => ∃ log, history.ballot voter term server log) :
      Step termOf members history (history.elect server term)
  /-- An entry has the term of its leader. -/
  | append (server : S) (entry : E)
      (present : history.current server = termOf entry)
      (leads : history.leader (termOf entry) = some server) :
      Step termOf members history (history.append server (termOf entry) entry)
  /-- A log is brought up to a beginning of another server's record. -/
  | accept (server : S) (term : ℕ) (leader : S) (count : ℕ) (log : List E)
      (present : history.current server = term) (leads : history.leader term = some leader)
      (other : leader ≠ server) (inside : count ≤ (history.record term).length)
      (replaced : Logs.Replaces ((history.record term).take count) (history.log server) log) :
      Step termOf members history (history.accept server term count log)

/-- The leader of a term came into office by election and has led since. -/
structure Office (termOf : E → ℕ) (members : List S) (root : List E) (history : History S E)
    (term : ℕ) (leader : S) : Prop where
  /-- The leader has seen the term. -/
  reached : term ≤ history.current leader
  /-- It took office with a log like all others. -/
  begins : root <+: history.base term
  /-- It has only appended to that log. -/
  extended : history.base term <+: history.record term
  /-- The log it took office with is older than the term. -/
  older : ∀ entry ∈ history.base term, termOf entry < term
  /-- What it has appended is of the term. -/
  own : ∀ (idx : ℕ) (entry : E), (history.record term)[idx]? = some entry →
    (history.base term).length ≤ idx → termOf entry = term
  /-- As long as it has seen no later term its log is the record. -/
  tenure : history.current leader = term → history.log leader = history.record term
  /-- It stood with the log it took office with. -/
  stood : history.stood leader term = some (history.base term)
  /-- A majority voted for it. -/
  elected : Majority members fun voter => ∃ log, history.ballot voter term leader log
  /-- It has the whole record. -/
  counted : history.acked leader term = (history.record term).length

/-- What is true of every history. -/
structure Sound (termOf : E → ℕ) (members : List S) (root : List E) (history : History S E) :
    Prop where
  /-- Logs consist of beginnings of records. -/
  rooted : ∀ server, history.Rooted termOf (history.log server)
  /-- All logs begin alike. -/
  begins : ∀ server, root <+: history.log server
  /-- Entries of later terms are unknown. -/
  reached : ∀ server, ∀ entry ∈ history.log server, termOf entry ≤ history.current server
  /-- Records consist of beginnings of records. -/
  records : ∀ term, history.Rooted termOf (history.record term)
  /-- Term `0` is where the logs come from. -/
  origin : history.record 0 = root
  /-- It has no leader. -/
  unled : history.leader 0 = none
  /-- Without a leader there is no record. -/
  vacant : ∀ term, term ≠ 0 → history.leader term = none → history.record term = []
  /-- Leaders are in office. -/
  offices : ∀ term leader, history.leader term = some leader →
    Office termOf members root history term leader
  /-- A candidate keeps the log it stood with until there is a leader. -/
  candidacies : ∀ candidate term log, history.stood candidate term = some log →
    term ≠ 0 ∧ term ≤ history.current candidate ∧
      (history.current candidate = term → history.leader term = none →
        history.log candidate = log)
  /-- Voters preferred a log at least as recent as their own. -/
  ballots : ∀ voter term candidate log, history.ballot voter term candidate log →
    term ≤ history.current voter ∧ history.Rooted termOf log ∧
      ∃ newer, history.stood candidate term = some newer ∧ Recent termOf log newer
  /-- Acknowledgements are about what the leader had. -/
  inside : ∀ server term, history.acked server term ≤ (history.record term).length
  /-- Whoever has acknowledged something in a term has seen the term. -/
  seen : ∀ server term, 0 < history.acked server term → term ≤ history.current server
  /-- What was acknowledged is kept, unless a later leader did not have it. -/
  kept : ∀ server term count, count ≤ history.acked server term →
    (history.record term).take count <+: history.log server ∨
      history.Lost term count (history.current server + 1)
  /-- The same is true of the logs of voters. -/
  carried : ∀ voter later candidate log, history.ballot voter later candidate log →
    ∀ term count, term < later → count ≤ history.acked voter term →
      (history.record term).take count <+: log ∨ history.Lost term count later

/-- The history of one moment is part of the history of another. -/
structure Extends (before after : History S E) : Prop where
  /-- Terms are not forgotten. -/
  current : ∀ server, before.current server ≤ after.current server
  /-- Leaders stay leaders of their terms. -/
  leader : ∀ term leader, before.leader term = some leader → after.leader term = some leader
  /-- They took office with the same log. -/
  base : ∀ term leader, before.leader term = some leader → after.base term = before.base term
  /-- Records only grow. -/
  record : ∀ term, before.record term <+: after.record term
  /-- Candidates stood with the same log. -/
  stood : ∀ candidate term log, before.stood candidate term = some log →
    after.stood candidate term = some log
  /-- Votes stay cast. -/
  ballot : ∀ voter term candidate log, before.ballot voter term candidate log →
    after.ballot voter term candidate log
  /-- Acknowledgements are not taken back. -/
  acked : ∀ server term, before.acked server term ≤ after.acked server term

variable {termOf : E → ℕ} {members : List S} {root log newer left right : List E}
  {history before after final : History S E} {server candidate : S} {term count bound : ℕ}

namespace Extends

theorem refl (history : History S E) : Extends history history where
  current _ := Nat.le_refl _
  leader _ _ leads := leads
  base _ _ _ := rfl
  record _ := List.prefix_rfl
  stood _ _ _ stood := stood
  ballot _ _ _ _ cast := cast
  acked _ _ := Nat.le_refl _

theorem trans (first : Extends before after) (second : Extends after final) :
    Extends before final where
  current server := (first.current server).trans (second.current server)
  leader term leader leads := second.leader term leader (first.leader term leader leads)
  base term leader leads :=
    (second.base term leader (first.leader term leader leads)).trans (first.base term leader leads)
  record term := (first.record term).trans (second.record term)
  stood candidate term log stood :=
    second.stood candidate term log (first.stood candidate term log stood)
  ballot voter term candidate log cast :=
    second.ballot voter term candidate log (first.ballot voter term candidate log cast)
  acked server term := (first.acked server term).trans (second.acked server term)

theorem rooted (grows : Extends before after) (rooted : before.Rooted termOf log) :
    after.Rooted termOf log := fun idx entry present =>
  (rooted idx entry present).trans (grows.record _)

theorem led (grows : Extends before after) (led : before.leader term ≠ none) :
    after.leader term ≠ none := by
  obtain ⟨leader, leads⟩ := Option.ne_none_iff_exists'.mp led
  simp [grows.leader term leader leads]

/-- The beginnings of a record do not change. -/
theorem take_record (grows : Extends before after)
    (inside : count ≤ (before.record term).length) :
    (after.record term).take count = (before.record term).take count := by
  rw [List.prefix_iff_eq_take.mp (grows.record term), List.take_take, Nat.min_eq_left inside]

theorem lost (grows : Extends before after) (inside : count ≤ (before.record term).length)
    {bound' : ℕ} (wider : bound ≤ bound') (lost : before.Lost term count bound) :
    after.Lost term count bound' := by
  obtain ⟨between, past, below, led, without⟩ := lost
  obtain ⟨leader, leads⟩ := Option.ne_none_iff_exists'.mp led
  refine ⟨between, past, below.trans_le wider, ?_, ?_⟩
  · simp [grows.leader between leader leads]
  · rwa [grows.base between leader leads, grows.take_record inside]

end Extends

/-- An entry of the term lies behind the log its leader took office with. -/
theorem Office.base_length_le {leader : S} (office : Office termOf members root history term leader)
    {idx : ℕ} {entry : E} (present : (history.record term)[idx]? = some entry)
    (own : termOf entry = term) : (history.base term).length ≤ idx := by
  by_contra short
  have inherited : idx < (history.base term).length := Nat.lt_of_not_le short
  have same := List.prefix_iff_getElem?.mp office.extended idx inherited
  have older := office.older _ (List.getElem_mem inherited)
  rw [present, Option.some.injEq] at same
  rw [← same, own] at older
  exact Nat.lt_irrefl _ older

/-- An office stays in order as long as its leader does not write to its log outside of it. -/
theorem Office.keep {leader : S} (office : Office termOf members root before term leader)
    (grows : Extends before after) (base : after.base term = before.base term)
    (record : after.record term = before.record term)
    (tenure : after.current leader = term → after.log leader = after.record term)
    (counted : after.acked leader term = before.acked leader term) :
    Office termOf members root after term leader where
  reached := office.reached.trans (grows.current leader)
  begins := base ▸ office.begins
  extended := by rw [base, record]; exact office.extended
  older := base ▸ office.older
  own := by rw [base, record]; exact office.own
  tenure := tenure
  stood := by rw [base]; exact grows.stood _ _ _ office.stood
  elected := office.elected.mono fun voter ⟨log, cast⟩ => ⟨log, grows.ballot _ _ _ _ cast⟩
  counted := by rw [counted, record]; exact office.counted

namespace Sound

theorem log_ne (sound : Sound termOf members root history) (nonempty : root ≠ []) (server : S) :
    history.log server ≠ [] :=
  fun empty => nonempty (List.prefix_nil.mp (empty ▸ sound.begins server))

/-- A log has no entry of a term that has no leader yet. -/
theorem log_older (sound : Sound termOf members root history)
    (present : history.current server = term) (positive : term ≠ 0)
    (vacant : history.leader term = none) :
    ∀ entry ∈ history.log server, termOf entry < term := by
  intro entry member
  have reached := sound.reached server entry member
  obtain ⟨idx, inside, rfl⟩ := List.mem_iff_getElem.mp member
  have rooted := sound.rooted server idx _ (List.getElem?_eq_getElem inside)
  have other : termOf (history.log server)[idx] ≠ term := fun same => by
    rw [same, sound.vacant term positive vacant, List.prefix_nil, List.take_eq_nil_iff] at rooted
    rcases rooted with impossible | empty
    · exact absurd impossible (Nat.succ_ne_zero idx)
    · simp [empty] at inside
  omega

theorem acked_eq_zero (sound : Sound termOf members root history) (positive : term ≠ 0)
    (vacant : history.leader term = none) (server : S) : history.acked server term = 0 := by
  have inside := sound.inside server term
  rw [sound.vacant term positive vacant] at inside
  exact Nat.le_zero.mp inside

theorem positive_of_leads (sound : Sound termOf members root history) {leader : S}
    (leads : history.leader term = some leader) : term ≠ 0 := by
  rintro rfl
  simp [sound.unled] at leads

/-- Entries of a record are not younger than its term. -/
theorem record_le (sound : Sound termOf members root history)
    (oldest : ∀ entry ∈ root, termOf entry = 0) (term : ℕ) :
    ∀ entry ∈ history.record term, termOf entry ≤ term := by
  intro entry member
  rcases Nat.eq_zero_or_pos term with rfl | positive
  · rw [sound.origin] at member
    exact (oldest entry member).le
  · cases leads : history.leader term with
    | none => simp [sound.vacant term positive.ne' leads] at member
    | some leader =>
        have office := sound.offices term leader leads
        obtain ⟨idx, inside, rfl⟩ := List.mem_iff_getElem.mp member
        have found := List.getElem?_eq_getElem inside
        by_cases inherited : idx < (history.base term).length
        · refine (office.older _ ?_).le
          have same := List.prefix_iff_getElem?.mp office.extended idx inherited
          rw [found, Option.some.injEq] at same
          rw [same]
          exact List.getElem_mem inherited
        · exact (office.own idx _ found (Nat.le_of_not_lt inherited)).le

/-- What is kept stays kept when the log keeps what it shares with records. -/
theorem kept_of_keeps (sound : Sound termOf members root before) (grows : Extends before after)
    (acknowledged : count ≤ before.acked server term)
    (keeps : (before.record term).take count <+: before.log server →
      (before.record term).take count <+: after.log server ∨
        after.Lost term count (after.current server + 1)) :
    (after.record term).take count <+: after.log server ∨
      after.Lost term count (after.current server + 1) := by
  have inside := acknowledged.trans (sound.inside server term)
  rw [grows.take_record inside]
  rcases sound.kept server term count acknowledged with held | lost
  · exact keeps held
  · exact .inr (grows.lost inside (Nat.succ_le_succ (grows.current server)) lost)

/-- Ballots stay in order as the history grows. -/
theorem ballots_of_cast (sound : Sound termOf members root before) (grows : Extends before after)
    {voter : S} (cast : before.ballot voter term candidate log) :
    term ≤ after.current voter ∧ after.Rooted termOf log ∧
      ∃ newer, after.stood candidate term = some newer ∧ Recent termOf log newer := by
  obtain ⟨reached, rooted, newer, stood, recent⟩ := sound.ballots voter term candidate log cast
  exact ⟨reached.trans (grows.current voter), grows.rooted rooted, newer,
    grows.stood candidate term newer stood, recent⟩

section Present

/-! A server whose present term has a leader changes its log and acknowledges more of it. -/

variable [DecidableEq S] {follower : S} {opened amount : ℕ}

/-- It is no candidate any more. -/
theorem candidacies_of_led (sound : Sound termOf members root history)
    (present : history.current server = term) (led : history.leader term ≠ none)
    (stood : history.stood candidate opened = some log) :
    opened ≠ 0 ∧ opened ≤ history.current candidate ∧
      (history.current candidate = opened → history.leader opened = none →
        Function.update history.log server newer candidate = log) := by
  obtain ⟨positive, reached, kept⟩ := sound.candidacies candidate opened log stood
  refine ⟨positive, reached, fun now vacant => ?_⟩
  have apart : candidate ≠ server := by
    rintro rfl
    exact led (by rw [← present, now, vacant])
  rw [Function.update_of_ne apart]
  exact kept now vacant

theorem inside_of_acked (sound : Sound termOf members root before) (grows : Extends before after)
    (bounded : amount ≤ (after.record term).length) :
    (if follower = server ∧ opened = term then amount else before.acked follower opened) ≤
      (after.record opened).length := by
  split_ifs with same
  · exact same.2 ▸ bounded
  · exact (sound.inside follower opened).trans (grows.record opened).length_le

theorem seen_of_acked (sound : Sound termOf members root history)
    (present : history.current server = term)
    (positive : 0 <
      if follower = server ∧ opened = term then amount else history.acked follower opened) :
    opened ≤ history.current follower := by
  split_ifs at positive with same
  · rw [same.1, same.2]
    exact present.ge
  · exact sound.seen follower opened positive

/-- What voters carried stays carried, since they have seen the terms they voted in. -/
theorem carried_of_acked (sound : Sound termOf members root before) (grows : Extends before after)
    (present : before.current server = term) {voter : S} {later : ℕ}
    (cast : before.ballot voter later candidate log) (earlier : opened < later)
    (acknowledged : count ≤
      if voter = server ∧ opened = term then amount else before.acked voter opened) :
    (after.record opened).take count <+: log ∨ after.Lost opened count later := by
  have reached := (sound.ballots voter later candidate log cast).1
  split_ifs at acknowledged with same
  · obtain ⟨rfl, rfl⟩ := same
    omega
  · have inside := acknowledged.trans (sound.inside voter opened)
    rw [grows.take_record inside]
    have carried := sound.carried voter later candidate log cast opened count earlier acknowledged
    exact carried.imp_right (grows.lost inside (Nat.le_refl later))

end Present

end Sound

theorem sound_init (oldest : ∀ entry ∈ root, termOf entry = 0) :
    Sound termOf members root (History.init root : History S E) := by
  have rooted : (History.init root : History S E).Rooted termOf root := fun idx entry present => by
    simpa [History.init, oldest entry (List.mem_of_getElem? present)] using List.take_prefix _ _
  exact
    { rooted := fun _ => rooted
      begins := fun _ => List.prefix_rfl
      reached := fun _ entry member => (oldest entry member).le
      records := fun term => by
        by_cases first : term = 0
        · subst first
          exact rooted
        · intro idx entry present
          simp [History.init, first] at present
      origin := rfl
      unled := rfl
      vacant := fun term positive _ => if_neg positive
      offices := nofun
      candidacies := nofun
      ballots := nofun
      inside := fun _ _ => Nat.zero_le _
      seen := fun _ _ positive => absurd positive (Nat.lt_irrefl 0)
      kept := fun _ _ count none => by
        obtain rfl := Nat.le_zero.mp none
        exact .inl (List.nil_prefix)
      carried := nofun }

/-! ## Steps -/

section Steps

variable [DecidableEq S]

/-- A step adds to the history. -/
theorem Step.extends (step : Step termOf members before after)
    (sound : Sound termOf members root before) : Extends before after := by
  cases step with
  | adopt server term later =>
      refine { Extends.refl before with current := fun other => ?_ }
      by_cases same : other = server
      · subst same
        simpa [History.adopt] using later
      · simp [History.adopt, same]
  | stand server term positive present vacant fresh =>
      refine { Extends.refl before with stood := fun candidate opened log stood => ?_ }
      dsimp only [History.stand]
      rw [if_neg]
      · exact stood
      · rintro ⟨rfl, rfl⟩
        simp [fresh] at stood
  | vote server term candidate newer present vacant stood recent =>
      exact { Extends.refl before with ballot := fun _ _ _ _ cast => .inl cast }
  | elect server term present vacant stood elected =>
      obtain ⟨log, stands⟩ := Option.ne_none_iff_exists'.mp stood
      have positive := (sound.candidacies server term log stands).1
      have apart : ∀ opened leader, before.leader opened = some leader → opened ≠ term := by
        rintro opened leader leads rfl
        simp [vacant] at leads
      refine
        { Extends.refl before with
          leader := fun opened leader leads => ?_
          base := fun opened leader leads => ?_
          record := fun opened => ?_
          acked := fun other opened => ?_ }
      · exact (Function.update_of_ne (apart opened leader leads) _ _).trans leads
      · exact Function.update_of_ne (apart opened leader leads) _ _
      · by_cases same : opened = term
        · subst same
          simp [History.elect, sound.vacant opened positive vacant]
        · simp [History.elect, same]
      · dsimp only [History.elect]
        split_ifs with same
        · rw [same.2, sound.acked_eq_zero positive vacant other]
          exact Nat.zero_le _
        · exact Nat.le_refl _
  | append server entry present leads =>
      refine
        { Extends.refl before with
          record := fun opened => ?_
          acked := fun other opened => ?_ }
      · by_cases same : opened = termOf entry
        · subst same
          simp [History.append]
        · simp [History.append, same]
      · dsimp only [History.append]
        split_ifs with same
        · rw [same.1, same.2, (sound.offices _ server leads).counted]
          exact Nat.le_succ _
        · exact Nat.le_refl _
  | accept server term leader count log present leads other inside replaced =>
      refine { Extends.refl before with acked := fun follower opened => ?_ }
      dsimp only [History.accept]
      split_ifs with same
      · rw [same.1, same.2]
        exact Nat.le_max_left _ _
      · exact Nat.le_refl _

namespace Sound

theorem adopt (sound : Sound termOf members root history)
    (later : history.current server ≤ term) :
    Sound termOf members root (history.adopt server term) := by
  have step : Step termOf members history _ := .adopt server term later
  have grows := step.extends sound
  exact
    { sound with
      reached := fun other entry member =>
        (sound.reached other entry member).trans (grows.current other)
      offices := fun opened leader leads =>
        let office := sound.offices opened leader leads
        office.keep grows rfl rfl
          (fun same => office.tenure
            (Nat.le_antisymm ((grows.current leader).trans_eq same) office.reached)) rfl
      candidacies := fun other opened log stood => by
        obtain ⟨positive, reached, present⟩ := sound.candidacies other opened log stood
        exact ⟨positive, reached.trans (grows.current other), fun same =>
          present (Nat.le_antisymm ((grows.current other).trans_eq same) reached)⟩
      ballots := fun _ _ _ _ cast => sound.ballots_of_cast grows cast
      seen := fun other opened positive =>
        (sound.seen other opened positive).trans (grows.current other)
      kept := fun other opened count acknowledged =>
        sound.kept_of_keeps grows acknowledged .inl }

theorem stand (sound : Sound termOf members root history) (positive : term ≠ 0)
    (present : history.current server = term) (vacant : history.leader term = none)
    (fresh : history.stood server term = none) :
    Sound termOf members root (history.stand server term) := by
  have step : Step termOf members history _ := .stand server term positive present vacant fresh
  have grows := step.extends sound
  exact
    { sound with
      offices := fun opened leader leads =>
        let office := sound.offices opened leader leads
        office.keep grows rfl rfl office.tenure rfl
      candidacies := fun candidate opened log stood => by
        dsimp only [History.stand] at stood
        split_ifs at stood with same
        · obtain ⟨rfl, rfl⟩ := same
          obtain rfl := Option.some.inj stood
          exact ⟨positive, present.ge, fun _ _ => rfl⟩
        · exact sound.candidacies candidate opened log stood
      ballots := fun _ _ _ _ cast => sound.ballots_of_cast grows cast
      kept := sound.kept
      carried := sound.carried }

theorem vote (sound : Sound termOf members root history)
    (present : history.current server = term) (vacant : history.leader term = none)
    (stood : history.stood candidate term = some newer)
    (recent : Recent termOf (history.log server) newer) :
    Sound termOf members root (history.vote server term candidate) := by
  have step : Step termOf members history _ :=
    .vote server term candidate newer present vacant stood recent
  have grows := step.extends sound
  exact
    { sound with
      offices := fun opened leader leads =>
        let office := sound.offices opened leader leads
        office.keep grows rfl rfl office.tenure rfl
      ballots := fun voter opened other log cast => by
        rcases cast with old | ⟨rfl, rfl, rfl, rfl⟩
        · exact sound.ballots voter opened other log old
        · exact ⟨present.ge, sound.rooted voter, newer, stood, recent⟩
      kept := sound.kept
      carried := fun voter later other log cast opened count earlier acknowledged => by
        rcases cast with old | ⟨rfl, rfl, rfl, rfl⟩
        · exact sound.carried voter later other log old opened count earlier acknowledged
        · refine (sound.kept voter opened count acknowledged).imp_right ?_
          rintro ⟨between, past, below, led, without⟩
          have apart : between ≠ later := fun same => led (same ▸ vacant)
          exact ⟨between, past, by omega, led, without⟩ }

/-- The office of a server that takes it. -/
theorem office_elect (sound : Sound termOf members root history)
    (present : history.current server = term) (vacant : history.leader term = none)
    (positive : term ≠ 0) (stands : history.stood server term = some (history.log server))
    (elected : Majority members fun voter => ∃ log, history.ballot voter term server log) :
    Office termOf members root (history.elect server term) term server where
  reached := present.ge
  begins := by simpa [History.elect] using sound.begins server
  extended := by simp [History.elect]
  older := by simpa [History.elect] using sound.log_older present positive vacant
  own := fun idx entry found past => by
    simp only [History.elect, Function.update_self] at found past
    have inside := (List.getElem?_eq_some_iff.mp found).1
    omega
  tenure := fun _ => by simp [History.elect]
  stood := by simpa [History.elect] using stands
  elected := elected
  counted := by simp [History.elect]

theorem elect (sound : Sound termOf members root history)
    (present : history.current server = term) (vacant : history.leader term = none)
    (stood : history.stood server term ≠ none)
    (elected : Majority members fun voter => ∃ log, history.ballot voter term server log) :
    Sound termOf members root (history.elect server term) := by
  have step : Step termOf members history _ := .elect server term present vacant stood elected
  have grows := step.extends sound
  obtain ⟨log, stands⟩ := Option.ne_none_iff_exists'.mp stood
  obtain ⟨positive, -, same⟩ := sound.candidacies server term log stands
  obtain rfl := same present vacant
  exact
    { sound with
      rooted := fun other => grows.rooted (sound.rooted other)
      records := fun opened => by
        refine grows.rooted ?_
        by_cases same : opened = term
        · subst same
          simpa [History.elect] using sound.rooted server
        · simpa [History.elect, same] using sound.records opened
      origin := by simpa [History.elect, Ne.symm positive] using sound.origin
      unled := by simpa [History.elect, Ne.symm positive] using sound.unled
      vacant := fun opened later unled => by
        by_cases same : opened = term
        · subst same
          simp [History.elect] at unled
        · simp only [History.elect, Function.update_of_ne same] at unled ⊢
          exact sound.vacant opened later unled
      offices := fun opened leader leads => by
        by_cases same : opened = term
        · subst same
          obtain rfl : server = leader := by simpa [History.elect] using leads
          exact sound.office_elect present vacant positive stands elected
        · simp only [History.elect, Function.update_of_ne same] at leads
          have office := sound.offices opened leader leads
          refine office.keep grows (Function.update_of_ne same _ _)
            (Function.update_of_ne same _ _) ?_ (by simp [History.elect, same])
          simpa [History.elect, same] using office.tenure
      candidacies := fun candidate opened log stood => by
        obtain ⟨later, reached, kept⟩ := sound.candidacies candidate opened log stood
        refine ⟨later, reached, fun present unled => kept present ?_⟩
        by_cases same : opened = term
        · subst same
          exact vacant
        · simpa [History.elect, same] using unled
      ballots := fun _ _ _ _ cast => sound.ballots_of_cast grows cast
      inside := fun _ _ => sound.inside_of_acked grows (by simp [History.elect])
      seen := fun _ _ positive => sound.seen_of_acked present positive
      kept := fun other opened count acknowledged => by
        dsimp only [History.elect] at acknowledged
        split_ifs at acknowledged with same
        · obtain ⟨rfl, rfl⟩ := same
          exact .inl (by simpa [History.elect] using List.take_prefix _ _)
        · exact sound.kept_of_keeps grows acknowledged .inl
      carried := fun _ _ _ _ cast _ _ earlier acknowledged =>
        sound.carried_of_acked grows present cast earlier acknowledged }

/-- A record that gets longer still consists of beginnings of records. -/
theorem rooted_append (sound : Sound termOf members root history) {entry : E}
    (grows : Extends history (history.append server (termOf entry) entry)) :
    (history.append server (termOf entry) entry).Rooted termOf
      (history.record (termOf entry) ++ [entry]) := by
  intro idx other found
  rcases Logs.getElem?_concat found with earlier | ⟨rfl, rfl⟩
  · have inside : idx + 1 ≤ (history.record (termOf entry)).length :=
      (List.getElem?_eq_some_iff.mp earlier).1
    rw [List.take_append_of_le_length inside]
    exact (sound.records _ idx other earlier).trans (grows.record _)
  · simpa [History.append] using List.take_prefix _ _

/-- The office of a leader whose log gets longer. -/
theorem office_append {entry : E}
    (office : Office termOf members root history (termOf entry) server)
    (tenure : history.log server = history.record (termOf entry)) :
    Office termOf members root (history.append server (termOf entry) entry) (termOf entry)
      server :=
  { office with
    extended := by
      simpa [History.append] using office.extended.trans (List.prefix_append _ _)
    own := fun idx other found past => by
      simp only [History.append, Function.update_self] at found
      rcases Logs.getElem?_concat found with earlier | ⟨-, rfl⟩
      · exact office.own idx other earlier past
      · rfl
    tenure := fun _ => by simp [History.append, tenure]
    counted := by simp [History.append] }

theorem append (sound : Sound termOf members root history) {entry : E}
    (present : history.current server = termOf entry)
    (leads : history.leader (termOf entry) = some server) :
    Sound termOf members root (history.append server (termOf entry) entry) := by
  have step : Step termOf members history _ := .append server entry present leads
  have grows := step.extends sound
  have office := sound.offices _ server leads
  have tenure := office.tenure present
  have rooted := sound.rooted_append grows
  have begins : ∀ other, history.log other <+:
      (history.append server (termOf entry) entry).log other := by
    intro other
    by_cases same : other = server
    · subst same
      simp [History.append]
    · simp [History.append, same]
  exact
    { sound with
      rooted := fun other => by
        by_cases same : other = server
        · subst same
          simpa only [History.append, Function.update_self, tenure] using rooted
        · simp only [History.append, Function.update_of_ne same]
          exact grows.rooted (sound.rooted other)
      begins := fun other => (sound.begins other).trans (begins other)
      reached := fun other found member => by
        by_cases same : other = server
        · subst same
          simp only [History.append, Function.update_self] at member
          rcases List.mem_append.mp member with old | new
          · exact sound.reached other found old
          · rw [List.mem_singleton.mp new]
            exact present.ge
        · simp only [History.append, Function.update_of_ne same] at member
          exact sound.reached other found member
      records := fun opened => by
        by_cases same : opened = termOf entry
        · subst same
          simpa only [History.append, Function.update_self] using rooted
        · simp only [History.append, Function.update_of_ne same]
          exact grows.rooted (sound.records opened)
      origin := by
        have positive := sound.positive_of_leads leads
        simpa [History.append, Ne.symm positive] using sound.origin
      vacant := fun opened later unled => by
        have apart : opened ≠ termOf entry := by
          rintro rfl
          simp [History.append, leads] at unled
        simpa [History.append, apart] using sound.vacant opened later unled
      offices := fun opened leader leadsTerm => by
        by_cases same : opened = termOf entry
        · subst same
          obtain rfl : server = leader := Option.some.inj (leads.symm.trans leadsTerm)
          exact office_append office tenure
        · have other := sound.offices opened leader leadsTerm
          refine other.keep grows rfl (Function.update_of_ne same _ _)
            (fun (now : history.current leader = opened) => ?_)
            (by simp [History.append, same])
          have apart : leader ≠ server := fun same' => same (by rw [← now, same', present])
          simpa [History.append, apart, same] using other.tenure now
      candidacies := fun _ _ _ stood =>
        sound.candidacies_of_led present (by simp [leads]) stood
      ballots := fun _ _ _ _ cast => sound.ballots_of_cast grows cast
      inside := fun _ _ => sound.inside_of_acked grows (by simp [History.append])
      seen := fun _ _ positive => sound.seen_of_acked present positive
      kept := fun other opened count acknowledged => by
        dsimp only [History.append] at acknowledged
        split_ifs at acknowledged with same
        · obtain ⟨rfl, rfl⟩ := same
          left
          simpa [History.append, tenure] using List.take_prefix _ _
        · exact sound.kept_of_keeps grows acknowledged fun held =>
            .inl (held.trans (begins other))
      carried := fun _ _ _ _ cast _ _ earlier acknowledged =>
        sound.carried_of_acked grows present cast earlier acknowledged }

/-- What the server had acknowledged before and now is in its new log, or lost. -/
theorem kept_accept (sound : Sound termOf members root history) {leader : S}
    (grows : Extends history (history.accept server term count log))
    (present : history.current server = term) (leads : history.leader term = some leader)
    (replaced : Logs.Replaces ((history.record term).take count) (history.log server) log)
    {opened number : ℕ}
    (acknowledged : number ≤
      if opened = term then max (history.acked server term) count
      else history.acked server opened) :
    (history.record opened).take number <+: log ∨
      (history.accept server term count log).Lost opened number (history.current server + 1) := by
  have office := sound.offices term leader leads
  have keeps : ∀ common, common <+: history.log server → common <+: history.record term →
      common <+: log := fun common => replaced.keeps (List.take_prefix _ _)
  have new : (history.accept server term count log).log server = log := by simp [History.accept]
  by_cases now : opened = term
  · subst now
    rw [if_pos rfl] at acknowledged
    have either : number ≤ history.acked server opened ∨ number ≤ count := by omega
    rcases either with old | fresh
    · rw [← new]
      refine sound.kept_of_keeps grows old fun held => .inl ?_
      rw [new]
      exact keeps _ held (List.take_prefix _ _)
    · exact .inl ((List.take_prefix_take_left fresh).trans replaced.begins)
  · rw [if_neg now] at acknowledged
    rw [← new]
    refine sound.kept_of_keeps grows acknowledged fun held => ?_
    rw [new]
    by_cases inBase : (history.record opened).take number <+: history.base term
    · exact .inl (keeps _ held (inBase.trans office.extended))
    · -- the leader of the present term is the one that did not have it
      have some : 0 < number := by
        rcases Nat.eq_zero_or_pos number with rfl | positive
        · simp at inBase
        · exact positive
      have reached := sound.seen server opened (some.trans_le acknowledged)
      refine .inr ⟨term, by omega, Nat.lt_succ_of_le present.ge, ?_, inBase⟩
      simp [History.accept, leads]

theorem accept (sound : Sound termOf members root history) {leader : S}
    (present : history.current server = term) (leads : history.leader term = some leader)
    (other : leader ≠ server) (inside : count ≤ (history.record term).length)
    (replaced : Logs.Replaces ((history.record term).take count) (history.log server) log)
    (oldest : ∀ entry ∈ root, termOf entry = 0) :
    Sound termOf members root (history.accept server term count log) := by
  have step : Step termOf members history _ :=
    .accept server term leader count log present leads other inside replaced
  have grows := step.extends sound
  have office := sound.offices term leader leads
  have source := replaced.eq_or_eq
  exact
    { sound with
      rooted := fun follower => by
        refine grows.rooted ?_
        by_cases same : follower = server
        · subst same
          simp only [History.accept, Function.update_self]
          rcases source with unchanged | slice
          · exact unchanged ▸ sound.rooted follower
          · exact slice ▸ (sound.records term).take count
        · simp only [History.accept, Function.update_of_ne same]
          exact sound.rooted follower
      begins := fun follower => by
        by_cases same : follower = server
        · subst same
          simp only [History.accept, Function.update_self]
          exact replaced.keeps (List.take_prefix _ _) (sound.begins follower)
            (office.begins.trans office.extended)
        · simpa [History.accept, same] using sound.begins follower
      reached := fun follower entry member => by
        by_cases same : follower = server
        · subst same
          simp only [History.accept, Function.update_self] at member
          rcases source with unchanged | slice
          · exact sound.reached follower entry (unchanged ▸ member)
          · rw [slice] at member
            exact (sound.record_le oldest term entry (List.mem_of_mem_take member)).trans present.ge
        · simp only [History.accept, Function.update_of_ne same] at member
          exact sound.reached follower entry member
      offices := fun opened holder (leadsTerm : history.leader opened = some holder) => by
        have holds := sound.offices opened holder leadsTerm
        refine holds.keep grows rfl rfl (fun (now : history.current holder = opened) => ?_) ?_
        · have apart : holder ≠ server := by
            rintro rfl
            rw [← now, present, leads] at leadsTerm
            exact other (Option.some.inj leadsTerm)
          simpa [History.accept, apart] using holds.tenure now
        · have apart : ¬ (holder = server ∧ opened = term) := by
            rintro ⟨rfl, rfl⟩
            rw [leads] at leadsTerm
            exact other (Option.some.inj leadsTerm)
          exact if_neg apart
      candidacies := fun _ _ _ stood =>
        sound.candidacies_of_led present (by simp [leads]) stood
      inside := fun _ _ =>
        sound.inside_of_acked grows (Nat.max_le.mpr ⟨sound.inside server term, inside⟩)
      seen := fun _ _ positive => sound.seen_of_acked present positive
      kept := fun follower opened number acknowledged => by
        by_cases same : follower = server
        · subst same
          simp only [History.accept, true_and] at acknowledged
          simpa [History.accept] using
            sound.kept_accept grows present leads replaced acknowledged
        · have unchanged : ¬ (follower = server ∧ opened = term) := fun both => same both.1
          simp only [History.accept, unchanged, if_false] at acknowledged
          refine sound.kept_of_keeps grows acknowledged fun held => .inl ?_
          simpa [History.accept, same] using held
      carried := fun _ _ _ _ cast _ _ earlier acknowledged =>
        sound.carried_of_acked grows present cast earlier acknowledged }

end Sound

/-- Every step keeps a history sound. -/
theorem Step.sound (step : Step termOf members before after)
    (sound : Sound termOf members root before) (oldest : ∀ entry ∈ root, termOf entry = 0) :
    Sound termOf members root after := by
  cases step with
  | adopt server term later => exact sound.adopt later
  | stand server term positive present vacant fresh =>
      exact sound.stand positive present vacant fresh
  | vote server term candidate newer present vacant stood recent =>
      exact sound.vote present vacant stood recent
  | elect server term present vacant stood elected =>
      exact sound.elect present vacant stood elected
  | append server entry present leads => exact sound.append present leads
  | accept server term leader count log present leads other inside replaced =>
      exact sound.accept present leads other inside replaced oldest

/-- Every run keeps a history sound and adds to it. -/
theorem sound_of_run (run : Relation.ReflTransGen (Step termOf members) before after)
    (sound : Sound termOf members root before) (oldest : ∀ entry ∈ root, termOf entry = 0) :
    Sound termOf members root after ∧ Extends before after := by
  induction run with
  | refl => exact ⟨sound, Extends.refl before⟩
  | tail _ step ih => exact ⟨step.sound ih.1 oldest, ih.2.trans (step.extends ih.1)⟩

end Steps

end Leadership
