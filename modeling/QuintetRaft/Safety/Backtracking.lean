import QuintetRaft.Model.AppendingLoop
import QuintetRaft.Model.Cluster
import QuintetRaft.Safety.FollowerLog

/-!
# Backtracking

The loop of `tryAppendEntries` against a follower whose log matches the leader's.  Each rejected
request takes `nextIdx` back by one; the first accepted one brings the follower up to date.
-/

namespace Quintet

namespace Server

variable {srv : Server} {msg : AppendEntriesMessage}

/-- The follower's handler answers in the follower's term. -/
theorem followerAppendEntries_term (srv : Server) (msg : AppendEntriesMessage) :
    (srv.followerAppendEntries msg).2.1.1 = srv.state.currentTerm := by
  by_cases accepts : srv.FollowerAccepts msg
  · rw [followerAppendEntries_of_accepts accepts]
    rfl
  · rw [followerAccepts_iff] at accepts
    by_cases fresh : srv.state.currentTerm ≤ msg.term
    · have other : ¬ termAt srv.state.entries msg.prevLogIdx = some msg.prevLogTerm :=
        fun matched => accepts ⟨fresh, matched⟩
      rw [followerAppendEntries, if_neg (Nat.not_lt.mpr fresh), defaultRPCAppendEntries,
        appendEntriesBody, checkRpcTerm_of_le _ _ fresh]
      simp [Nat.not_lt.mpr fresh, other, deferApply]
    · rw [followerAppendEntries, if_pos (Nat.lt_of_not_le fresh)]

end Server

namespace Exchange

variable {info : ServerInfo} {target : ServerId} {before after : Exchange}
  {node : FollowerNode} {oldMatchIdx retryTimes : Nat}

/-- The loop can find out where the logs agree: the follower's log matches the leader's and has the
same sentinel, and the leader is not behind the follower's term. -/
structure Comparable (exchange : Exchange) : Prop where
  /-- The sentinels agree. -/
  sentinel : exchange.follower.state.entries[0]? = exchange.leader.state.entries[0]?
  /-- The logs match. -/
  matching : Logs.Matching LogEntry.term exchange.follower.state.entries
    exchange.leader.state.entries
  /-- The leader's term is not stale. -/
  fresh : exchange.follower.state.currentTerm ≤ exchange.leader.state.currentTerm

/-- The thread has found the follower's log up to date and goes on to count replicas. -/
structure BroughtUp (target : ServerId) (oldMatchIdx : Nat) (before after : Exchange) : Prop where
  /-- The cursors stand at the end of the leader's log. -/
  cursors : after.leader.leader.followerNodes target =
    some
      { nextIdx := before.leader.state.entries.length
        matchIdx := before.leader.state.entries.length - 1
        appendingThread := .counting (oldMatchIdx + 1) }
  /-- The leader's shared state is as before. -/
  leader : after.leader.state = before.leader.state
  /-- The follower has the leader's log, or has kept its own, which begins with it. -/
  follower : after.follower.state.entries =
    if before.leader.state.entries <+: before.follower.state.entries then
      before.follower.state.entries
    else before.leader.state.entries

/-- A request whose previous entry agrees is accepted, and brings the follower up to date. -/
theorem turn_of_agrees (comparable : before.Comparable)
    (known : before.leader.leader.followerNodes target = some node)
    (trying : node.appendingThread = .trying oldMatchIdx retryTimes) (positive : 1 ≤ node.nextIdx)
    (inside : node.nextIdx ≤ before.leader.state.entries.length)
    (agrees : termAt before.follower.state.entries (node.nextIdx - 1) =
      termAt before.leader.state.entries (node.nextIdx - 1)) :
    ∃ after, before.turn info target = some after ∧ BroughtUp target oldMatchIdx before after := by
  obtain ⟨msg, built⟩ : ∃ msg,
      before.leader.createAppendEntriesMessage info node.nextIdx = some msg := by
    have present : node.nextIdx - 1 < before.leader.state.entries.length := by omega
    simp [Server.createAppendEntriesMessage, termAt, present]
  obtain ⟨carries, reach, next, term, -, -⟩ := createAppendEntriesMessage_eq_some built positive
  have passes : termAt before.follower.state.entries msg.prevLogIdx = some msg.prevLogTerm := by
    rw [← carries.previous, show msg.prevLogIdx = node.nextIdx - 1 by omega, agrees]
  have accepts : before.follower.FollowerAccepts msg :=
    Server.followerAccepts_iff.mpr ⟨term ▸ comparable.fresh, passes⟩
  have replaced := replicate_replaces comparable.matching carries passes
  have length : node.nextIdx + msg.logEntries.length = before.leader.state.entries.length := by
    rw [← reach, AppendEntriesMessage.reach, next]
  refine ⟨_, turn_of_trying known trying built, ?_, ?_, ?_⟩
  · rw [Server.followerAppendEntries_of_accepts accepts]
    simp [Server.receiveAppendReply, Server.deferApply, length]
  · rw [Server.followerAppendEntries_of_accepts accepts]
    simp [Server.receiveAppendReply, Server.deferApply]
  · rw [Server.followerAppendEntries_of_accepts accepts]
    rw [reach, List.take_length] at replaced
    simp only [Server.deferApply, Server.applyReadyEntries_state,
      ServerState.followCommit_entries]
    rcases replaced with ⟨already, same⟩ | ⟨conflict, same⟩
    · rw [same, if_pos already]
    · rw [same, if_neg conflict]

/-- A request whose previous entry differs is rejected, and takes `nextIdx` back by one. -/
theorem turn_of_differs (comparable : before.Comparable)
    (known : before.leader.leader.followerNodes target = some node)
    (trying : node.appendingThread = .trying oldMatchIdx retryTimes) (positive : 1 ≤ node.nextIdx)
    (inside : node.nextIdx ≤ before.leader.state.entries.length)
    (differs : termAt before.follower.state.entries (node.nextIdx - 1) ≠
      termAt before.leader.state.entries (node.nextIdx - 1)) :
    2 ≤ node.nextIdx ∧ ∃ after, before.turn info target = some after ∧
      after.leader.leader.followerNodes target =
        some { node with nextIdx := node.nextIdx - 1 } ∧
      after.leader.state = before.leader.state ∧
      after.follower.state.entries = before.follower.state.entries ∧
      after.follower.state.currentTerm = before.follower.state.currentTerm := by
  have later : 2 ≤ node.nextIdx := by
    by_contra first
    rw [show node.nextIdx - 1 = 0 by omega, termAt, termAt, comparable.sentinel] at differs
    exact differs rfl
  obtain ⟨msg, built⟩ : ∃ msg,
      before.leader.createAppendEntriesMessage info node.nextIdx = some msg := by
    have present : node.nextIdx - 1 < before.leader.state.entries.length := by omega
    simp [Server.createAppendEntriesMessage, termAt, present]
  obtain ⟨carries, -, next, -, -, -⟩ := createAppendEntriesMessage_eq_some built positive
  have rejects : ¬ before.follower.FollowerAccepts msg := by
    rw [Server.followerAccepts_iff, ← carries.previous,
      show msg.prevLogIdx = node.nextIdx - 1 by omega]
    exact fun accepts => differs accepts.2
  obtain ⟨refused, lastApplied, state⟩ := Server.followerAppendEntries_of_rejects rejects
  have current : ¬ before.leader.state.currentTerm <
      (before.follower.followerAppendEntries msg).2.1.1 := by
    rw [Server.followerAppendEntries_term]
    exact Nat.not_lt.mpr comparable.fresh
  have notFirst : node.nextIdx ≠ 1 := by omega
  refine ⟨later, _, turn_of_trying known trying built, ?_, ?_, ?_, ?_⟩
  · simp [Server.receiveAppendReply, refused, current, notFirst, trying]
  · simp [Server.receiveAppendReply, refused, current, notFirst]
  · rw [state]
  · rw [state]

/-- From the head of the loop the follower is brought up to date within `nextIdx` turns. -/
theorem broughtUp_within (info : ServerInfo) (idx : Nat) :
    ∀ {before : Exchange} {node : FollowerNode}, before.Comparable →
      before.leader.leader.followerNodes target = some node →
      node.appendingThread = .trying oldMatchIdx retryTimes → node.nextIdx = idx + 1 →
      node.nextIdx ≤ before.leader.state.entries.length →
      ∃ requests ≤ node.nextIdx, ∃ after,
        Execution.run (step info target) (List.replicate requests ()) before = some after ∧
          BroughtUp target oldMatchIdx before after := by
  induction idx with
  | zero =>
      intro before node comparable known trying next inside
      have agrees : termAt before.follower.state.entries (node.nextIdx - 1) =
          termAt before.leader.state.entries (node.nextIdx - 1) := by
        rw [next, termAt, termAt, comparable.sentinel]
      obtain ⟨after, taken, up⟩ :=
        turn_of_agrees comparable known trying (by omega) inside agrees
      exact ⟨1, by omega, after, Execution.run_cons taken, up⟩
  | succ idx ih =>
      intro before node comparable known trying next inside
      by_cases agrees : termAt before.follower.state.entries (node.nextIdx - 1) =
          termAt before.leader.state.entries (node.nextIdx - 1)
      · obtain ⟨after, taken, up⟩ :=
          turn_of_agrees comparable known trying (by omega) inside agrees
        exact ⟨1, by omega, after, Execution.run_cons taken, up⟩
      · obtain ⟨-, middle, taken, known', leader, entries, term⟩ :=
          turn_of_differs comparable known trying (by omega) inside agrees
        have comparable' : middle.Comparable := by
          refine ⟨?_, ?_, ?_⟩
          · rw [entries, leader]
            exact comparable.sentinel
          · rw [entries, leader]
            exact comparable.matching
          · rw [term, leader]
            exact comparable.fresh
        have inside' : node.nextIdx - 1 ≤ middle.leader.state.entries.length := by
          rw [leader]
          omega
        obtain ⟨requests, bounded, after, execution, up⟩ :=
          ih comparable' known' trying (by dsimp only; omega) inside'
        refine ⟨requests + 1, by dsimp only at bounded; omega, after,
          (Execution.run_cons taken).trans execution, ?_⟩
        have cursors := up.cursors
        have follower := up.follower
        rw [leader] at cursors
        rw [leader, entries] at follower
        exact ⟨cursors, up.leader.trans leader, follower⟩

/-- Backtracking brings every follower with a matching log up to date, with at most `nextIdx`
requests. -/
theorem tryAppendEntries_broughtUp {leader follower begun : Server} {sent : List Output}
    (started : leader.step info (.startAppending target) = some (begun, sent))
    (known : leader.leader.followerNodes target = some node) (positive : 1 ≤ node.nextIdx)
    (inside : node.nextIdx ≤ leader.state.entries.length)
    (comparable : Comparable { leader, follower }) :
    ∃ requests ≤ node.nextIdx,
      ∃ after ∈ Execution.run (step info target) (List.replicate requests ())
          { leader := begun, follower },
        BroughtUp target node.matchIdx { leader, follower } after := by
  obtain ⟨found, present, -, same⟩ := Server.step_startAppending.mp started
  obtain rfl : node = found := Option.some.inj (known.symm.trans present)
  obtain ⟨rfl, -⟩ := Prod.mk.inj same
  have trying : (leader.startAppending target node).leader.followerNodes target =
      some { node with appendingThread := .trying node.matchIdx 0 } := by
    simp [Server.startAppending]
  have comparable' : Comparable { leader := leader.startAppending target node, follower } :=
    ⟨comparable.sentinel, comparable.matching, comparable.fresh⟩
  obtain ⟨requests, bounded, after, execution, up⟩ :=
    broughtUp_within info (node.nextIdx - 1) comparable' trying rfl
      (Nat.sub_add_cancel positive).symm inside
  exact ⟨requests, bounded, after, execution, up.cursors, up.leader, up.follower⟩

/-- A leader of term 2 with one entry, which takes its follower to have it already. -/
def leadingNewer : Server :=
  { state := { currentTerm := 2, entries := [{}, { term := 2 }] }
    identity := .leader
    leader := { followerNodes := fun _ => some { nextIdx := 2 } } }

/-- A follower that holds two other entries instead, of term 1. -/
def followingOlder : Server :=
  { state := { currentTerm := 1, entries := [{}, { term := 1 }, { term := 1 }] } }

theorem comparable_older : Comparable { leader := leadingNewer, follower := followingOlder } where
  sentinel := rfl
  matching idx first second present found same := by
    rcases idx with _ | _ | idx
    · rfl
    · obtain rfl := Option.some.inj present
      obtain rfl := Option.some.inj found
      simp at same
    · simp [leadingNewer] at found
  fresh := by decide

theorem tryAppendEntries_broughtUp_older :
    ∃ requests ≤ 2,
      ∃ after ∈ Execution.run (step (trio.info (localServer 1)) (localServer 2))
          (List.replicate requests ())
          { leader := leadingNewer.startAppending (localServer 2) { nextIdx := 2 }
            follower := followingOlder },
        BroughtUp (localServer 2) 0 { leader := leadingNewer, follower := followingOlder } after :=
  tryAppendEntries_broughtUp
    (Server.step_startAppending.mpr ⟨{ nextIdx := 2 }, rfl, rfl, rfl⟩) rfl (by decide) (by decide)
    comparable_older

end Exchange

end Quintet
