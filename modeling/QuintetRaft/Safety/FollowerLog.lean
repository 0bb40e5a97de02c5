import QuintetRaft.Model.Appending

/-!
# Append requests at a follower

What `IdentityFollower::RPCAppendEntries` answers and what it makes of the log, for every state and
every request.  The deferred application is left aside: it touches only `lastApplied`.
-/

namespace Quintet

variable {entries : List LogEntry} {msg : AppendEntriesMessage}

/-! ## 64-bit indices -/

/-- Number of values of `std::size_t`. -/
def indexModulus : Nat := 18446744073709551616

/-- No vector has more elements than a pointer difference can count. -/
def maxVectorSize : Nat := 9223372036854775807

/-- The scan of steps 3 and 4 as the code computes it, with the offset reached so far. -/
def scanEntries (entries : List LogEntry) (prevLogIdx : Nat) : Nat → List LogEntry → Nat
  | idxOffset, [] => idxOffset
  | idxOffset, entry :: rest =>
      if termAt entries ((prevLogIdx + idxOffset + 1) % indexModulus) = some entry.term then
        scanEntries entries prevLogIdx ((idxOffset + 1) % indexModulus) rest
      else
        idxOffset

/-- Steps 3 and 4 with 64-bit indices. -/
def replicatedEntries (entries : List LogEntry) (msg : AppendEntriesMessage) : List LogEntry :=
  let idxOffset := scanEntries entries msg.prevLogIdx 0 msg.logEntries
  if idxOffset ≠ msg.logEntries.length then
    entries.take ((msg.prevLogIdx + idxOffset + 1) % indexModulus) ++ msg.logEntries.drop idxOffset
  else
    entries

/-- Step 5 with 64-bit indices. -/
def followedCommitIdx (entries : List LogEntry) (commitIdx msgCommitIdx : Nat) : Nat :=
  if commitIdx < msgCommitIdx then
    min msgCommitIdx ((entries.length + (indexModulus - 1)) % indexModulus)
  else
    commitIdx

theorem scanEntries_eq {prevLogIdx idxOffset : Nat} {incoming : List LogEntry}
    (fits : prevLogIdx + idxOffset + incoming.length < indexModulus) :
    scanEntries entries prevLogIdx idxOffset incoming =
      idxOffset + matchingEntries entries (prevLogIdx + idxOffset + 1) incoming := by
  induction incoming generalizing idxOffset with
  | nil => rfl
  | cons entry rest ih =>
      rw [List.length_cons] at fits
      simp only [scanEntries, matchingEntries]
      rw [Nat.mod_eq_of_lt (by omega), Nat.mod_eq_of_lt (by omega)]
      split_ifs
      · rw [ih (by omega), ← Nat.add_assoc prevLogIdx]
        omega
      · rfl

/-- The new log is not too long for a 64-bit index. -/
theorem Appended.length_lt {after : List LogEntry} (appended : Appended entries msg after)
    (inside : msg.prevLogIdx < entries.length) (small : entries.length ≤ maxVectorSize)
    (smallMessage : msg.logEntries.length ≤ maxVectorSize) : after.length < indexModulus := by
  unfold maxVectorSize at small smallMessage
  unfold indexModulus
  by_cases agrees : ∀ idx < msg.logEntries.length, AgreesAt entries msg idx
  · rw [appended.same agrees]
    omega
  · rw [(appended.ends agrees).1, AppendEntriesMessage.reach]
    omega

/-! ## The handler -/

namespace Server

variable {srv : Server}

/-- The follower accepts the request. -/
def FollowerAccepts (srv : Server) (msg : AppendEntriesMessage) : Prop :=
  srv.state.currentTerm ≤ msg.term ∧ ∃ entry,
    srv.state.entries[msg.prevLogIdx]? = some entry ∧ entry.term = msg.prevLogTerm

theorem followerAccepts_iff :
    srv.FollowerAccepts msg ↔
      srv.state.currentTerm ≤ msg.term ∧
        termAt srv.state.entries msg.prevLogIdx = some msg.prevLogTerm :=
  and_congr_right fun _ => termAt_eq_some.symm

theorem followerAppendEntries_of_accepts (accepts : srv.FollowerAccepts msg) :
    srv.followerAppendEntries msg =
      deferApply ({ srv with state := (srv.state.replicate msg).followCommit msg.commitIdx },
        srv.state.currentTerm, true) := by
  obtain ⟨fresh, matched⟩ := followerAccepts_iff.mp accepts
  rw [followerAppendEntries, if_neg (Nat.not_lt.mpr fresh), defaultRPCAppendEntries,
    appendEntriesBody, checkRpcTerm_of_le _ _ fresh]
  simp [matched, Nat.not_lt.mpr fresh]

/-- A rejected request leaves the server as it is, except that it may apply entries. -/
theorem followerAppendEntries_of_rejects (rejects : ¬ srv.FollowerAccepts msg) :
    (srv.followerAppendEntries msg).2.1.2 = false ∧
      ∃ lastApplied, (srv.followerAppendEntries msg).1.state = { srv.state with lastApplied } := by
  rw [followerAccepts_iff] at rejects
  by_cases fresh : srv.state.currentTerm ≤ msg.term
  · have other : ¬ termAt srv.state.entries msg.prevLogIdx = some msg.prevLogTerm :=
      fun matched => rejects ⟨fresh, matched⟩
    rw [followerAppendEntries, if_neg (Nat.not_lt.mpr fresh), defaultRPCAppendEntries,
      appendEntriesBody, checkRpcTerm_of_le _ _ fresh]
    simp only [if_neg (Nat.not_lt.mpr fresh), ne_eq, other, not_false_eq_true, if_true]
    exact ⟨rfl, _, applyReadyEntries_state srv⟩
  · rw [followerAppendEntries, if_pos (Nat.lt_of_not_le fresh)]
    exact ⟨rfl, srv.state.lastApplied, rfl⟩

/-- What the follower's handler answers and what it does to the log. -/
structure AppendsAtFollower (srv : Server) (msg : AppendEntriesMessage)
    (result : Server × Reply × List Output) : Prop where
  /-- It accepts requests that are not stale and whose previous entry is in the log. -/
  replies : result.2.1.2 = true ↔ srv.FollowerAccepts msg
  /-- A rejected request changes nothing. -/
  rejected : result.2.1.2 = false →
    result.1.state.entries = srv.state.entries ∧ result.1.state.commitIdx = srv.state.commitIdx ∧
      result.1.state.votedFor = srv.state.votedFor ∧
      result.1.state.currentTerm = srv.state.currentTerm
  /-- An accepted request is appended. -/
  accepted : result.2.1.2 = true →
    Appended srv.state.entries msg result.1.state.entries
  /-- Handling the request again changes neither the log nor the commit index. -/
  again : (result.1.followerAppendEntries msg).1.state.entries = result.1.state.entries ∧
    (result.1.followerAppendEntries msg).1.state.commitIdx = result.1.state.commitIdx
  /-- The sentinel stays. -/
  first : result.1.state.entries[0]? = srv.state.entries[0]?
  /-- No 64-bit index wraps around: the code computes the log and the commit index above. -/
  wide : srv.state.entries.length ≤ maxVectorSize → msg.logEntries.length ≤ maxVectorSize →
    result.2.1.2 = true →
      result.1.state.entries = replicatedEntries srv.state.entries msg ∧
        result.1.state.commitIdx =
          followedCommitIdx result.1.state.entries srv.state.commitIdx msg.commitIdx

theorem FollowerAccepts.inside (accepts : srv.FollowerAccepts msg) :
    msg.prevLogIdx < srv.state.entries.length :=
  lt_length_of_termAt (followerAccepts_iff.mp accepts).2

/-- An accepted request is accepted again. -/
theorem FollowerAccepts.again (accepts : srv.FollowerAccepts msg) :
    (srv.followerAppendEntries msg).1.FollowerAccepts msg := by
  have kept := (replicate_appended accepts.inside).keeps 0 (Nat.zero_le _)
    fun _ impossible => absurd impossible (Nat.not_lt_zero _)
  obtain ⟨fresh, entry, found, sameTerm⟩ := accepts
  rw [followerAppendEntries_of_accepts ⟨fresh, entry, found, sameTerm⟩]
  refine ⟨by simpa [deferApply] using fresh, entry, ?_, sameTerm⟩
  have present := congrArg (fun entries : List LogEntry => entries[msg.prevLogIdx]?) kept
  simp only [List.getElem?_take_of_lt (Nat.lt_succ_self msg.prevLogIdx), Nat.add_zero, found]
    at present
  simpa [deferApply] using present

theorem followCommit_commitIdx (state : ServerState) (commitIdx : Nat) :
    (state.followCommit commitIdx).commitIdx =
      if state.commitIdx < commitIdx then min commitIdx (state.entries.length - 1)
      else state.commitIdx := by
  rw [ServerState.followCommit]
  split_ifs <;> rfl

/-- On a follower's log and 64-bit indices steps 3 to 5 compute what they compute on unbounded
ones. -/
theorem replicatedEntries_eq {state : ServerState} (inside : msg.prevLogIdx < state.entries.length)
    (small : state.entries.length ≤ maxVectorSize)
    (smallMessage : msg.logEntries.length ≤ maxVectorSize) :
    replicatedEntries state.entries msg = (state.replicate msg).entries := by
  have bounded : matchingEntries state.entries (msg.prevLogIdx + 1) msg.logEntries ≤
      msg.logEntries.length := matchingEntries_le _ _
  unfold maxVectorSize at small smallMessage
  have fits : msg.prevLogIdx + 0 + msg.logEntries.length < indexModulus := by
    unfold indexModulus
    omega
  rw [replicatedEntries, scanEntries_eq fits, ServerState.replicate_entries]
  simp only [Nat.add_zero, Nat.zero_add]
  rw [Nat.mod_eq_of_lt (by unfold indexModulus; omega)]

theorem followedCommitIdx_eq {state : ServerState} {commitIdx : Nat}
    (small : state.entries.length < indexModulus) :
    followedCommitIdx state.entries state.commitIdx commitIdx =
      (state.followCommit commitIdx).commitIdx := by
  have positive := state.entries_length_pos
  have same : (state.entries.length + (indexModulus - 1)) % indexModulus =
      state.entries.length - 1 := by
    unfold indexModulus at small ⊢
    omega
  rw [followedCommitIdx, same, followCommit_commitIdx]

theorem appendsAtFollower_of_accepts (accepts : srv.FollowerAccepts msg) :
    AppendsAtFollower srv msg (srv.followerAppendEntries msg) := by
  have inside := accepts.inside
  have appended := replicate_appended inside
  have handled := followerAppendEntries_of_accepts accepts
  have repeated := followerAppendEntries_of_accepts accepts.again
  have entries : (srv.followerAppendEntries msg).1.state.entries =
      (srv.state.replicate msg).entries := by
    simp [handled, deferApply]
  have commitIdx : (srv.followerAppendEntries msg).1.state.commitIdx =
      ((srv.state.replicate msg).followCommit msg.commitIdx).commitIdx := by
    simp [handled, deferApply]
  have replied : (srv.followerAppendEntries msg).2.1.2 = true := by rw [handled]; rfl
  have agrees : ∀ idx < msg.logEntries.length,
      AgreesAt (srv.followerAppendEntries msg).1.state.entries msg idx :=
    entries ▸ appended.terms
  refine
    { replies := iff_of_true replied accepts
      rejected := fun refused => absurd (refused.symm.trans replied) Bool.false_ne_true
      accepted := fun _ => entries ▸ appended
      again := ⟨?_, ?_⟩
      first := by rw [entries]; exact appended.first
      wide := fun small smallMessage _ => ⟨?_, ?_⟩ }
  · rw [repeated]
    simpa [deferApply] using replicate_of_agrees agrees
  · have sameLog := replicate_of_agrees agrees
    rw [followCommit_commitIdx, ServerState.replicate_commitIdx] at commitIdx
    rw [repeated]
    simp only [deferApply, applyReadyEntries_state, followCommit_commitIdx,
      ServerState.replicate_commitIdx, sameLog, entries, commitIdx]
    split_ifs <;> omega
  · rw [entries, replicatedEntries_eq inside small smallMessage]
  · rw [commitIdx, entries]
    have long : (srv.state.replicate msg).entries.length < indexModulus :=
      appended.length_lt inside small smallMessage
    simpa using (followedCommitIdx_eq long).symm

theorem appendsAtFollower_of_rejects (rejects : ¬ srv.FollowerAccepts msg) :
    AppendsAtFollower srv msg (srv.followerAppendEntries msg) := by
  obtain ⟨replied, lastApplied, state⟩ := followerAppendEntries_of_rejects rejects
  have still : ¬ (srv.followerAppendEntries msg).1.FollowerAccepts msg := by
    rwa [FollowerAccepts, state]
  obtain ⟨-, _, repeated⟩ := followerAppendEntries_of_rejects still
  have refused : (srv.followerAppendEntries msg).2.1.2 ≠ true := by simp [replied]
  exact
    { replies := iff_of_false refused rejects
      rejected := fun _ => by simp [state]
      accepted := fun accepted => absurd accepted refused
      again := by simp [repeated]
      first := by rw [state]
      wide := fun _ _ accepted => absurd accepted refused }

/-- The follower's handler of append requests does what it should, for every state and every
request. -/
theorem followerAppendEntries_appends (srv : Server) (msg : AppendEntriesMessage) :
    AppendsAtFollower srv msg (srv.followerAppendEntries msg) := by
  by_cases accepts : srv.FollowerAccepts msg
  · exact appendsAtFollower_of_accepts accepts
  · exact appendsAtFollower_of_rejects accepts

end Server

end Quintet
