import Mathlib.Order.Basic
import Mathlib.Order.Lattice
import QuintetRaft.Model.Server

/-!
# Handlers shared by the identities

`IdentityBaseImpl.cpp`.  A handler maps a server to its successor and the reply; the destructor of
the deferred `applyReadyEntries` runs last and may hand entries to the application.
-/

namespace Quintet

/-- Whether a log ending at `lastLogIdx` in `lastLogTerm` is at least as recent as the local one. -/
def upToDate (state : ServerState) (lastLogIdx : Nat) (lastLogTerm : Nat) : Prop :=
  state.lastTerm < lastLogTerm ∨
    state.lastTerm = lastLogTerm ∧ state.entries.length - 1 ≤ lastLogIdx

instance (state : ServerState) (lastLogIdx : Nat) (lastLogTerm : Nat) :
    Decidable (upToDate state lastLogIdx lastLogTerm) :=
  inferInstanceAs (Decidable (_ ∨ _))

/-- The scan of steps 3 and 4 of `defaultRPCAppendEntries`: the number of leading message entries
whose terms agree with the local log from `start` on. -/
def matchingEntries (entries : List LogEntry) (start : Nat) : List LogEntry → Nat
  | [] => 0
  | entry :: rest =>
      if termAt entries start = some entry.term then
        matchingEntries entries (start + 1) rest + 1
      else
        0

namespace ServerState

/-- Steps 3 and 4 of `defaultRPCAppendEntries`: cut the log at the first conflict and append the
remaining message entries. -/
def replicate (state : ServerState) (msg : AppendEntriesMessage) : ServerState :=
  let idxOffset := matchingEntries state.entries (msg.prevLogIdx + 1) msg.logEntries
  if idxOffset ≠ msg.logEntries.length then
    { state with
      entries := state.entries.take (msg.prevLogIdx + idxOffset + 1) ++
        msg.logEntries.drop idxOffset
      entries_ne := by simp [state.entries_ne] }
  else
    state

/-- Step 5 of `defaultRPCAppendEntries`. -/
def followCommit (state : ServerState) (commitIdx : Nat) : ServerState :=
  if state.commitIdx < commitIdx then
    { state with commitIdx := min commitIdx (state.entries.length - 1) }
  else
    state

section Fields

variable (state : ServerState) (msg : AppendEntriesMessage) (commitIdx : Nat)

@[simp] theorem replicate_currentTerm : (state.replicate msg).currentTerm = state.currentTerm := by
  unfold replicate; dsimp only; split_ifs <;> rfl

@[simp] theorem replicate_votedFor : (state.replicate msg).votedFor = state.votedFor := by
  unfold replicate; dsimp only; split_ifs <;> rfl

@[simp] theorem replicate_commitIdx : (state.replicate msg).commitIdx = state.commitIdx := by
  unfold replicate; dsimp only; split_ifs <;> rfl

@[simp] theorem replicate_lastApplied : (state.replicate msg).lastApplied = state.lastApplied := by
  unfold replicate; dsimp only; split_ifs <;> rfl

theorem replicate_entries :
    (state.replicate msg).entries =
      (let idxOffset := matchingEntries state.entries (msg.prevLogIdx + 1) msg.logEntries
      if idxOffset ≠ msg.logEntries.length then
        state.entries.take (msg.prevLogIdx + idxOffset + 1) ++ msg.logEntries.drop idxOffset
      else state.entries) := by
  unfold replicate; dsimp only; split_ifs <;> rfl

/-- The new log does not depend on the term of the server. -/
@[simp] theorem replicate_entries_withTerm (term : Nat) :
    ({ state with currentTerm := term }.replicate msg).entries = (state.replicate msg).entries := by
  unfold replicate; dsimp only; split_ifs <;> rfl

@[simp] theorem followCommit_currentTerm :
    (state.followCommit commitIdx).currentTerm = state.currentTerm := by
  unfold followCommit; split_ifs <;> rfl

@[simp] theorem followCommit_votedFor :
    (state.followCommit commitIdx).votedFor = state.votedFor := by
  unfold followCommit; split_ifs <;> rfl

@[simp] theorem followCommit_entries :
    (state.followCommit commitIdx).entries = state.entries := by
  unfold followCommit; split_ifs <;> rfl

@[simp] theorem followCommit_lastApplied :
    (state.followCommit commitIdx).lastApplied = state.lastApplied := by
  unfold followCommit; split_ifs <;> rfl

end Fields

/-- The condition under which `defaultRPCRequestVote` grants a vote. -/
def grants (state : ServerState) (msg : RequestVoteMessage) : Prop :=
  state.currentTerm < msg.term ∨
    (state.votedFor = nullServerId ∨ state.votedFor = msg.candidateId) ∧
      upToDate state msg.lastLogIdx msg.lastLogTerm

instance (state : ServerState) (msg : RequestVoteMessage) : Decidable (state.grants msg) :=
  inferInstanceAs (Decidable (_ ∨ _))

end ServerState

namespace Server

/-- `checkRpcTerm`.  The comparison is the one in the source: it fires on the smaller term. -/
def checkRpcTerm (term : Nat) (identity : ServerIdentityNo) (srv : Server) : Server × Bool :=
  if term < srv.state.currentTerm then
    let lowered := { srv with state.currentTerm := term }
    (if identity ≠ .follower then lowered.notify .follower term else lowered, true)
  else
    (srv, false)

/-- `defaultRPCRequestVote` up to its return. -/
def requestVoteBody (msg : RequestVoteMessage) (identity : ServerIdentityNo) (srv : Server) :
    Server × Reply :=
  let srv := (srv.checkRpcTerm msg.term identity).1
  if msg.term < srv.state.currentTerm then
    (srv, srv.state.currentTerm, false)
  else if srv.state.currentTerm < msg.term then
    -- the vote is granted here without asking `upToDate`
    let granted :=
      { srv with state.votedFor := msg.candidateId, state.currentTerm := msg.term }
    (if identity ≠ .follower then granted.notify .follower msg.term else granted, msg.term, true)
  else if (srv.state.votedFor = nullServerId ∨ srv.state.votedFor = msg.candidateId) ∧
      upToDate srv.state msg.lastLogIdx msg.lastLogTerm then
    ({ srv with state.votedFor := msg.candidateId }, srv.state.currentTerm, true)
  else
    (srv, srv.state.currentTerm, false)

/-- `defaultRPCAppendEntries` up to its return. -/
def appendEntriesBody (msg : AppendEntriesMessage) (identity : ServerIdentityNo) (srv : Server) :
    Server × Reply :=
  let srv := (srv.checkRpcTerm msg.term identity).1
  let curTerm := srv.state.currentTerm
  if msg.term < curTerm then
    (srv, curTerm, false)
  -- `termAt` is `none` when the log ends before `prevLogIdx`
  else if termAt srv.state.entries msg.prevLogIdx ≠ some msg.prevLogTerm then
    (srv, curTerm, false)
  else
    ({ srv with state := (srv.state.replicate msg).followCommit msg.commitIdx }, curTerm, true)

section Bodies

variable (srv : Server) (identity : ServerIdentityNo)

/-- The server after `checkRpcTerm` differs in its term and possibly in a queued step-down. -/
@[simp] theorem checkRpcTerm_state (term : Nat) :
    (srv.checkRpcTerm term identity).1.state =
      { srv.state with currentTerm := min srv.state.currentTerm term } := by
  unfold checkRpcTerm
  split_ifs with lower
  · simp [Nat.min_eq_right lower.le]
  · simp [Nat.min_eq_right lower.le]
  · simp [Nat.min_eq_left (Nat.le_of_not_lt lower)]

@[simp] theorem checkRpcTerm_identity (term : Nat) :
    (srv.checkRpcTerm term identity).1.identity = srv.identity := by
  unfold checkRpcTerm; split_ifs <;> simp

@[simp] theorem checkRpcTerm_candidate (term : Nat) :
    (srv.checkRpcTerm term identity).1.candidate = srv.candidate := by
  unfold checkRpcTerm; split_ifs <;> simp

@[simp] theorem checkRpcTerm_leader (term : Nat) :
    (srv.checkRpcTerm term identity).1.leader = srv.leader := by
  unfold checkRpcTerm; split_ifs <;> simp

theorem checkRpcTerm_of_le {term : Nat} (fresh : srv.state.currentTerm ≤ term) :
    srv.checkRpcTerm term identity = (srv, false) := by
  simp [checkRpcTerm, Nat.not_lt.mpr fresh]

theorem checkRpcTerm_of_lt {term : Nat} (stale : term < srv.state.currentTerm) :
    srv.checkRpcTerm term identity =
      ({ (if identity ≠ .follower then srv.notify .follower term else srv) with
          state := { srv.state with currentTerm := term } }, true) := by
  simp only [checkRpcTerm, stale, if_true, notify_withState]
  split_ifs <;> rfl

variable (msg : RequestVoteMessage)

/-- What `defaultRPCRequestVote` does in all its branches: it always ends in the term of the
message, and it grants the vote when that term was greater or when the usual test succeeds. -/
theorem requestVoteBody_eq :
    srv.requestVoteBody msg identity =
      ({ (if identity ≠ .follower ∧ srv.state.currentTerm ≠ msg.term then
            srv.notify .follower msg.term else srv) with
          state :=
            { srv.state with
              currentTerm := msg.term
              votedFor :=
                if srv.state.grants msg then msg.candidateId else srv.state.votedFor } },
        msg.term, decide (srv.state.grants msg)) := by
  rcases lt_trichotomy srv.state.currentTerm msg.term with greater | equal | lower
  · have granted : srv.state.grants msg := .inl greater
    rw [requestVoteBody, checkRpcTerm_of_le srv identity greater.le]
    simp only [Nat.not_lt.mpr greater.le, greater, granted, notify_withState]
    by_cases follows : identity = .follower <;> simp [follows, greater.ne]
  · have test : srv.state.grants msg ↔
        (srv.state.votedFor = nullServerId ∨ srv.state.votedFor = msg.candidateId) ∧
          upToDate srv.state msg.lastLogIdx msg.lastLogTerm := by
      simp [ServerState.grants, equal]
    rw [requestVoteBody, checkRpcTerm_of_le srv identity equal.le]
    by_cases granted : srv.state.grants msg
    · simp [← equal, test.mp granted, granted]
    · simp [← equal, mt test.mpr granted, granted]
  · have test : srv.state.grants msg ↔
        (srv.state.votedFor = nullServerId ∨ srv.state.votedFor = msg.candidateId) ∧
          upToDate { srv.state with currentTerm := msg.term } msg.lastLogIdx msg.lastLogTerm := by
      simp [ServerState.grants, lower.le, upToDate, ServerState.lastTerm]
    rw [requestVoteBody, checkRpcTerm_of_lt srv identity lower]
    by_cases granted : srv.state.grants msg
    · simp [lower.ne', test.mp granted, granted]
    · simp [lower.ne', mt test.mpr granted, granted]

/-- After `checkRpcTerm` the message is never stale, so only the log test can reject it. -/
theorem appendEntriesBody_eq (msg : AppendEntriesMessage) :
    srv.appendEntriesBody msg identity =
      (let lowered := (srv.checkRpcTerm msg.term identity).1
      if termAt srv.state.entries msg.prevLogIdx = some msg.prevLogTerm then
        ({ lowered with state := (lowered.state.replicate msg).followCommit msg.commitIdx },
          min srv.state.currentTerm msg.term, true)
      else
        (lowered, min srv.state.currentTerm msg.term, false)) := by
  simp only [appendEntriesBody, checkRpcTerm_state]
  rw [if_neg (by omega)]
  split_ifs <;> simp_all

end Bodies

/-- Run the deferred `applyReadyEntries` after a handler body. -/
def deferApply (result : Server × Reply) : Server × Reply × List Output :=
  (result.1.applyReadyEntries.1, result.2, result.1.applyReadyEntries.2)

/-- `IdentityBaseImpl::defaultRPCRequestVote`. -/
def defaultRPCRequestVote (msg : RequestVoteMessage) (identity : ServerIdentityNo)
    (srv : Server) : Server × Reply × List Output :=
  deferApply (srv.requestVoteBody msg identity)

/-- `IdentityBaseImpl::defaultRPCAppendEntries`. -/
def defaultRPCAppendEntries (msg : AppendEntriesMessage) (identity : ServerIdentityNo)
    (srv : Server) : Server × Reply × List Output :=
  deferApply (srv.appendEntriesBody msg identity)

/-- `IdentityBaseImpl::defaultAddLog`. -/
def defaultAddLog : AddLogReply := { success := false, leaderId := nullServerId }

end Server

end Quintet
