import QuintetRaft.Model.Effects
import QuintetRaft.Model.Outputs
import QuintetRaft.Model.Sections

/-!
# A server that works through its sections alone

The sections of every handler, callback and transformation, taken without disturbance, do what
`Server.step` does in one step.
-/

namespace Quintet

open Sections (Act Completes Fails Process Program)

/-! ## What a section leaves alone -/

/-- The log, its indices, and what a leader keeps are the same. -/
structure Server.SameBooks (before after : Server) : Prop where
  /-- The log. -/
  entries : after.state.entries = before.state.entries
  /-- The commit index. -/
  commitIdx : after.state.commitIdx = before.state.commitIdx
  /-- The index of the last applied entry. -/
  lastApplied : after.state.lastApplied = before.state.lastApplied
  /-- The identity. -/
  identity : after.identity = before.identity
  /-- The private data of the leader. -/
  leader : after.leader = before.leader

namespace Section

/-- The section leaves the log, its indices and what a leader keeps alone. -/
def Quiet : Section → Bool
  | replicate .. | writeCommit .. | writeApplied .. | storeEntry .. | assignIdentity _
  | reinitStates | buildMessage .. | raiseCommit _ => false
  | _ => true

theorem go_quiet {info : ServerInfo} {srv after : Server} {section' : Section}
    {outputs : List Output} {next : Option Section} (quiet : section'.Quiet)
    (moved : section'.go info srv = some (after, outputs, next)) : srv.SameBooks after := by
  cases section' with
  | replicate | writeCommit | writeApplied | storeEntry | assignIdentity | reinitStates
  | buildMessage | raiseCommit => cases quiet
  | requestVotes srvList =>
      cases srvList
      all_goals
        obtain ⟨rfl, -⟩ := Prod.mk.inj (Option.some.inj moved)
        exact ⟨rfl, rfl, rfl, rfl, rfl⟩
  | dispatchRequestVote | dispatchAppendEntries | dispatchAddLog =>
      simp only [go] at moved
      split at moved
      all_goals
        obtain ⟨rfl, -⟩ := Prod.mk.inj (Option.some.inj moved)
        exact ⟨rfl, rfl, rfl, rfl, rfl⟩
  | testVote | followerTerm | compareIndices | compareCommit =>
      simp only [go] at moved
      split at moved
      all_goals
        obtain ⟨rfl, -⟩ := Prod.mk.inj (Option.some.inj moved)
        exact ⟨rfl, rfl, rfl, rfl, rfl⟩
  | adoptTerm =>
      simp only [go] at moved
      split at moved
      all_goals obtain ⟨rfl, -⟩ := Prod.mk.inj (Option.some.inj moved)
      · split <;> constructor <;> simp
      · exact ⟨rfl, rfl, rfl, rfl, rfl⟩
  | compareVotes =>
      obtain ⟨rfl, -⟩ := Prod.mk.inj (Option.some.inj moved)
      split <;> constructor <;> simp
  | _ =>
      obtain ⟨rfl, -⟩ := Prod.mk.inj (Option.some.inj moved)
      constructor <;> simp

/-- Nothing comes after the building of a message. -/
theorem buildMessage_next {info : ServerInfo} {srv after : Server} {outputs : List Output}
    {next : Option Section} {target : ServerId} {term commitIdx : Nat}
    (moved : (buildMessage target term commitIdx).go info srv = some (after, outputs, next)) :
    after.state = srv.state ∧ next = none := by
  simp only [go] at moved
  split at moved
  · split at moved
    · obtain ⟨prevLogTerm, -, built⟩ := Option.bind_eq_some_iff.mp moved
      obtain ⟨rfl, -, rfl⟩ := finish_eq_some.mp built
      exact ⟨rfl, rfl⟩
    · cases moved
  · cases moved

/-! ## What a section hands on -/

/-- The section is one of an append request that has no answer yet, of a change of the identity, or
of a commit. -/
def Delicate : Section → Bool
  | dispatchAppendEntries _ | followerTerm _ | candidateTerm _ | candidateNotify .. | readTerm _
  | checkAppendTerm .. | matchLog .. | replicate .. | readCommit .. | writeCommit ..
  | assignIdentity _ | reinitStates | compareCommit _ | raiseCommit _ => true
  | _ => false

/-- The sections that follow each other, with what the first has found and done. -/
inductive HandsOn (srv : Server) : Server → Section → Section → Prop
  | plain {after : Server} {section' later : Section} (same : srv.SameBooks after)
      (first : section'.Delicate = false) (second : later.Delicate = false) :
      HandsOn srv after section' later
  | applied {entriesToApply : List BasicLogEntry} {answer : List Output} :
      HandsOn srv { srv with state.lastApplied := srv.state.commitIdx }
        (writeApplied entriesToApply answer) (handOver entriesToApply answer)
  | follows {msg : AppendEntriesMessage} (role : srv.identity = .follower) :
      HandsOn srv srv (dispatchAppendEntries msg) (followerTerm msg)
  | stands {msg : AppendEntriesMessage} (role : srv.identity = .candidate) :
      HandsOn srv srv (dispatchAppendEntries msg) (candidateTerm msg)
  | leads {msg : AppendEntriesMessage} (role : srv.identity = .leader) :
      HandsOn srv srv (dispatchAppendEntries msg) (checkAppendTerm msg .leader)
  | passes {msg : AppendEntriesMessage} (passes : srv.state.currentTerm ≤ msg.term) :
      HandsOn srv srv (followerTerm msg) (checkAppendTerm msg .follower)
  | stepsDown {msg : AppendEntriesMessage} {curTerm : Nat} :
      HandsOn srv srv (candidateTerm msg) (candidateNotify msg curTerm)
  | stays {msg : AppendEntriesMessage} :
      HandsOn srv srv (candidateTerm msg) (checkAppendTerm msg .candidate)
  | notified {after : Server} {msg : AppendEntriesMessage} {curTerm : Nat}
      (same : srv.SameBooks after) :
      HandsOn srv after (candidateNotify msg curTerm) (checkAppendTerm msg .candidate)
  | checked {after : Server} {msg : AppendEntriesMessage} {identity : ServerIdentityNo}
      (same : srv.SameBooks after) : HandsOn srv after (checkAppendTerm msg identity) (readTerm msg)
  | stale {msg : AppendEntriesMessage} {answer : List Output} :
      HandsOn srv srv (readTerm msg) (compareIndices answer)
  | recent {msg : AppendEntriesMessage} {curTerm : Nat} :
      HandsOn srv srv (readTerm msg) (matchLog msg curTerm)
  | differs {msg : AppendEntriesMessage} {curTerm : Nat} {answer : List Output} :
      HandsOn srv srv (matchLog msg curTerm) (compareIndices answer)
  | matched {msg : AppendEntriesMessage} {curTerm : Nat}
      (matched : termAt srv.state.entries msg.prevLogIdx = some msg.prevLogTerm) :
      HandsOn srv srv (matchLog msg curTerm) (replicate msg curTerm)
  | replicated {msg : AppendEntriesMessage} {curTerm : Nat} :
      HandsOn srv { srv with state := srv.state.replicate msg } (replicate msg curTerm)
        (readCommit msg curTerm)
  | upToDate {msg : AppendEntriesMessage} {curTerm : Nat} {answer : List Output} :
      HandsOn srv srv (readCommit msg curTerm) (compareIndices answer)
  | behind {msg : AppendEntriesMessage} {curTerm : Nat}
      (behind : srv.state.commitIdx < msg.commitIdx) :
      HandsOn srv srv (readCommit msg curTerm) (writeCommit msg curTerm)
  | committed {msg : AppendEntriesMessage} {curTerm : Nat} {answer : List Output} :
      HandsOn srv
        { srv with state.commitIdx := min msg.commitIdx (srv.state.entries.length - 1) }
        (writeCommit msg curTerm) (compareIndices answer)
  | candidacy :
      HandsOn srv { srv with identity := .candidate } (assignIdentity .candidate) readOwnTerm
  | office :
      HandsOn srv { srv with identity := .leader } (assignIdentity .leader) reinitStates
  | exceeds {idx : Nat} (exceeds : srv.state.commitIdx < idx) :
      HandsOn srv srv (compareCommit idx) (raiseCommit idx)

/-- What comes after a section is handed on by it. -/
theorem go_handsOn {info : ServerInfo} {srv after : Server} {section' : Section}
    {outputs : List Output} {next : Option Section}
    (moved : section'.go info srv = some (after, outputs, next)) :
    ∀ later ∈ next, HandsOn srv after section' later := by
  cases section' with
  | dispatchAppendEntries msg =>
      simp only [go] at moved
      split at moved
      case h_1 role =>
        obtain ⟨rfl, -, rfl⟩ := next_eq_some.mp moved
        rintro _ ⟨⟩
        exact .follows role
      case h_2 role =>
        obtain ⟨rfl, -, rfl⟩ := next_eq_some.mp moved
        rintro _ ⟨⟩
        exact .stands role
      case h_3 role =>
        obtain ⟨rfl, -, rfl⟩ := next_eq_some.mp moved
        rintro _ ⟨⟩
        exact .leads role
      all_goals
        obtain ⟨-, -, rfl⟩ := finish_eq_some.mp moved
        rintro _ ⟨⟩
  | followerTerm msg =>
      simp only [go] at moved
      split at moved
      · obtain ⟨-, -, rfl⟩ := finish_eq_some.mp moved
        rintro _ ⟨⟩
      · obtain ⟨rfl, -, rfl⟩ := next_eq_some.mp moved
        rintro _ ⟨⟩
        exact .passes (Nat.le_of_not_lt ‹_›)
  | candidateTerm msg =>
      obtain ⟨rfl, -, rfl⟩ := next_eq_some.mp moved
      rintro _ ⟨⟩
      split
      · exact .stepsDown
      · exact .stays
  | candidateNotify msg curTerm =>
      have same := go_quiet rfl moved
      obtain ⟨rfl, -, rfl⟩ := next_eq_some.mp moved
      rintro _ ⟨⟩
      exact .notified same
  | checkAppendTerm msg identity =>
      have same := go_quiet rfl moved
      obtain ⟨rfl, -, rfl⟩ := next_eq_some.mp moved
      rintro _ ⟨⟩
      exact .checked same
  | readTerm msg =>
      obtain ⟨rfl, -, rfl⟩ := next_eq_some.mp moved
      rintro _ ⟨⟩
      split
      · exact .stale
      · exact .recent
  | matchLog msg curTerm =>
      obtain ⟨rfl, -, rfl⟩ := next_eq_some.mp moved
      rintro _ ⟨⟩
      split
      · exact .differs
      · exact .matched (not_not.mp ‹_›)
  | replicate msg curTerm =>
      obtain ⟨rfl, -, rfl⟩ := next_eq_some.mp moved
      rintro _ ⟨⟩
      exact .replicated
  | readCommit msg curTerm =>
      obtain ⟨rfl, -, rfl⟩ := next_eq_some.mp moved
      rintro _ ⟨⟩
      split
      · exact .behind ‹_›
      · exact .upToDate
  | writeCommit msg curTerm =>
      obtain ⟨rfl, -, rfl⟩ := next_eq_some.mp moved
      rintro _ ⟨⟩
      exact .committed
  | writeApplied entriesToApply answer =>
      obtain ⟨rfl, -, rfl⟩ := next_eq_some.mp moved
      rintro _ ⟨⟩
      exact .applied
  | assignIdentity target =>
      cases target
      case candidate =>
        obtain ⟨rfl, -, rfl⟩ := next_eq_some.mp moved
        rintro _ ⟨⟩
        exact .candidacy
      case leader =>
        obtain ⟨rfl, -, rfl⟩ := next_eq_some.mp moved
        rintro _ ⟨⟩
        exact .office
      all_goals
        obtain ⟨-, -, rfl⟩ := finish_eq_some.mp moved
        rintro _ ⟨⟩
  | compareCommit idx =>
      simp only [go] at moved
      split at moved
      · obtain ⟨rfl, -, rfl⟩ := next_eq_some.mp moved
        rintro _ ⟨⟩
        exact .exceeds ‹_›
      · obtain ⟨-, -, rfl⟩ := finish_eq_some.mp moved
        rintro _ ⟨⟩
  | requestVotes srvList =>
      have same := go_quiet rfl moved
      cases srvList
      · obtain ⟨-, -, rfl⟩ := finish_eq_some.mp moved
        rintro _ ⟨⟩
      · obtain ⟨-, -, rfl⟩ := next_eq_some.mp moved
        rintro _ ⟨⟩
        exact .plain same rfl rfl
  | dispatchRequestVote | dispatchAddLog | adoptTerm | testVote | compareIndices =>
      have same := go_quiet rfl moved
      simp only [go] at moved
      split at moved
      all_goals first
        | obtain ⟨-, -, rfl⟩ := finish_eq_some.mp moved
          rintro _ ⟨⟩
        | obtain ⟨-, -, rfl⟩ := next_eq_some.mp moved
          rintro _ ⟨⟩
          exact .plain same rfl rfl
  | storeEntry =>
      simp only [go] at moved
      split at moved
      all_goals
        obtain ⟨-, -, rfl⟩ := finish_eq_some.mp moved
        rintro _ ⟨⟩
  | buildMessage =>
      rw [(buildMessage_next moved).2]
      rintro _ ⟨⟩
  | handOver | notifyTimeout | reinitStates | compareVotes | raiseCommit =>
      obtain ⟨-, -, rfl⟩ := finish_eq_some.mp moved
      rintro _ ⟨⟩
  | refuseVote =>
      have same := go_quiet rfl moved
      obtain ⟨-, -, rfl⟩ := next_eq_some.mp moved
      rintro _ ⟨⟩
      split <;> exact .plain same rfl rfl
  | resetVotes =>
      have same := go_quiet rfl moved
      obtain ⟨-, later⟩ := Prod.mk.inj (Option.some.inj moved)
      obtain ⟨-, rfl⟩ := Prod.mk.inj later
      rintro _ ⟨⟩
      split <;> exact .plain same rfl rfl
  | startRequest =>
      have same := go_quiet rfl moved
      obtain ⟨-, later⟩ := Prod.mk.inj (Option.some.inj moved)
      obtain ⟨-, rfl⟩ := Prod.mk.inj later
      rintro _ ⟨⟩
      exact .plain same rfl rfl
  | _ =>
      have same := go_quiet rfl moved
      obtain ⟨-, -, rfl⟩ := next_eq_some.mp moved
      rintro _ ⟨⟩
      exact .plain same rfl rfl

/-- How an event begins, and what it hands on. -/
inductive Begins (info : ServerInfo) (srv : Server) : Event → Server → Option Section → Prop
  | plain {event : Event} {after : Server} {later : Section} (same : srv.SameBooks after)
      (calm : later.Delicate = false) : Begins info srv event after (some later)
  | ends {event : Event} {after : Server} (state : after.state = srv.state) :
      Begins info srv event after none
  | append {msg : AppendEntriesMessage} :
      Begins info srv (.rpcAppendEntries msg) srv (some (dispatchAppendEntries msg))
  | transform {target : ServerIdentityNo} {term : Nat} {rest : List (ServerIdentityNo × Nat)}
      (queue : srv.events = (target, term) :: rest) :
      Begins info srv .transform { srv with events := rest }.leave (some (assignIdentity target))
  | counted {target : ServerId} {node : FollowerNode} {idx replicateNum : Nat} {after : Server}
      (known : srv.leader.followerNodes target = some node)
      (thread : node.appendingThread = .counting idx)
      (counter : srv.leader.logStates[idx]? = some replicateNum)
      (many : info.exceedsHalf (replicateNum + 1)) (state : after.state = srv.state)
      (later : after.leader.followerNodes target =
        some { node with appendingThread := .counting (idx + 1) }) :
      Begins info srv (.countReplica target) after (some (compareCommit idx))
  | finished {target : ServerId} {node : FollowerNode} {idx : Nat}
      (known : srv.leader.followerNodes target = some node)
      (thread : node.appendingThread = .counting idx)
      (counter : srv.leader.logStates[idx]? = none) :
      Begins info srv (.countReplica target) (srv.finishAppending target node)
        (some (compareIndices []))
  | whole {event : Event} {after : Server} {outputs : List Output}
      (taken : srv.step info event = some (after, outputs)) : Begins info srv event after none

/-- Every event begins in one of these ways. -/
theorem start_begins {info : ServerInfo} {srv after : Server} {event : Event}
    {outputs : List Output} {next : Option Section}
    (starts : event.start info srv = some (after, outputs, next)) :
    Begins info srv event after next := by
  have still : srv.SameBooks srv := ⟨rfl, rfl, rfl, rfl, rfl⟩
  cases event with
  | rpcRequestVote msg | rpcAddLog msg | timeout =>
      obtain ⟨rfl, -, rfl⟩ := next_eq_some.mp (Option.ite_none_right_eq_some.mp starts).2
      exact .plain still rfl
  | rpcAppendEntries msg =>
      obtain ⟨rfl, -, rfl⟩ := next_eq_some.mp (Option.ite_none_right_eq_some.mp starts).2
      exact .append
  | transform =>
      cases queue : srv.events with
      | nil => simp [Event.start, queue] at starts
      | cons head rest =>
          simp only [Event.start, queue] at starts
          obtain ⟨rfl, -, rfl⟩ := next_eq_some.mp (Option.ite_none_right_eq_some.mp starts).2
          exact .transform queue
  | receiveVote target msg reply =>
      have begins := (Option.ite_none_right_eq_some.mp starts).2
      split at begins
      · obtain ⟨rfl, -, rfl⟩ := finish_eq_some.mp begins
        exact .ends rfl
      · obtain ⟨rfl, -, rfl⟩ := next_eq_some.mp begins
        exact .plain ⟨rfl, rfl, rfl, rfl, rfl⟩ rfl
  | sendAppendEntries target =>
      simp only [Event.start] at starts
      split at starts
      · split at starts
        · obtain ⟨rfl, -, rfl⟩ := next_eq_some.mp starts
          exact .plain still rfl
        · cases starts
      · cases starts
  | countReplica target =>
      cases known : srv.leader.followerNodes target with
      | none => simp [Event.start, known] at starts
      | some node =>
          cases thread : node.appendingThread with
          | counting idx =>
              cases counter : srv.leader.logStates[idx]? with
              | none =>
                  simp only [Event.start, known, thread, counter] at starts
                  obtain ⟨rfl, -, rfl⟩ := next_eq_some.mp starts
                  exact .finished known thread counter
              | some replicateNum =>
                  simp only [Event.start, known, thread, counter] at starts
                  split at starts
                  · obtain ⟨rfl, -, rfl⟩ := next_eq_some.mp starts
                    exact .counted known thread counter ‹_› rfl (Function.update_self ..)
                  · obtain ⟨rfl, -, rfl⟩ := finish_eq_some.mp starts
                    exact .ends rfl
          | _ => simp [Event.start, known, thread] at starts
  | addLogState | startAppending | interruptAppending | failAppendEntries | receiveAppendReply =>
      obtain ⟨result, taken, same⟩ := Option.map_eq_some_iff.mp starts
      obtain ⟨rfl, -, rfl⟩ : _ ∧ _ ∧ _ := by simpa using same
      exact .whole taken

end Section

namespace Server

variable {info : ServerInfo} {owner : Owner} {srv after final : Server} {section' next : Section}
  {outputs rest answer : List Output}

/-- A section without outputs, and what comes after it. -/
theorem completes_next (moved : section'.go info srv = Section.next after next)
    (later : Completes (sections info) after (some ⟨owner, next⟩) final rest) :
    Completes (sections info) srv (some ⟨owner, section'⟩) final rest := by
  have taken : (sections info).go ⟨owner, section'⟩ srv = some (after, [], some ⟨owner, next⟩) := by
    simp [sections, moved, Section.next]
  exact .more taken later

/-- The last section. -/
theorem completes_finish (moved : section'.go info srv = Section.finish after outputs) :
    Completes (sections info) srv (some ⟨owner, section'⟩) after outputs := by
  have taken : (sections info).go ⟨owner, section'⟩ srv = some (after, outputs, none) := by
    simp [sections, moved, Section.finish]
  rw [← List.append_nil outputs]
  exact .more taken (.done after)

/-- What begins at a server at rest. -/
theorem process_start {before later : ServerProcess} {event : Event}
    (taken : before.step (sections info) (.start event) = some later)
    (idle : before.running = []) :
    ∃ first next, event.start info before.state = some (later.state, first, next) ∧
      later.sent = before.sent ++ first ∧
      later.running = (next.map fun next => ServerThread.mk event.owner next).toList := by
  obtain ⟨-, result, starts, rfl⟩ := Process.step_start.mp taken
  obtain ⟨⟨after, first, next⟩, begins, rfl⟩ := Option.map_eq_some_iff.mp starts
  exact ⟨first, next, begins, rfl, by simp [Process.after, idle]⟩

/-- The next section of the only thread of a server. -/
theorem process_go {before later : ServerProcess} {position : Nat} {thread : ServerThread}
    (taken : before.step (sections info) (.go position) = some later)
    (alone : before.running = [thread]) :
    ∃ outputs next, thread.next.go info before.state = some (later.state, outputs, next) ∧
      later.sent = before.sent ++ outputs ∧
      later.running = (next.map fun next => { thread with next }).toList := by
  obtain ⟨thread', present, -, result, moved, rfl⟩ := Process.step_go.mp taken
  rw [alone] at present
  obtain ⟨inside, rfl⟩ := List.getElem?_eq_some_iff.mp present
  obtain rfl : position = 0 := Nat.lt_one_iff.mp inside
  obtain ⟨⟨after, outputs, next⟩, went, rfl⟩ := Option.map_eq_some_iff.mp moved
  exact ⟨outputs, next, went, rfl, by simp [Process.after, alone]⟩

/-! ## Handlers -/

/-- `applyReadyEntries`. -/
theorem completes_compareIndices :
    Completes (sections info) srv (some ⟨owner, .compareIndices answer⟩)
      srv.applyReadyEntries.1 (srv.applyReadyEntries.2 ++ answer) := by
  by_cases applied : srv.state.commitIdx ≤ srv.state.lastApplied
  · rw [applyReadyEntries, if_pos applied]
    exact completes_finish (if_pos applied)
  · rw [applyReadyEntries, if_neg applied]
    refine completes_next (if_neg applied) ?_
    refine completes_next rfl ?_
    refine completes_next rfl ?_
    exact completes_finish rfl

/-- The last part of a vote request, which reads the term for the answer. -/
theorem completes_answerVote {msg : RequestVoteMessage} {granted : Bool} :
    Completes (sections info) srv (some ⟨owner, .answerVote msg granted⟩)
      srv.applyReadyEntries.1
      (srv.applyReadyEntries.2 ++ [.voteReply msg (srv.state.currentTerm, granted)]) :=
  completes_next rfl completes_compareIndices

/-- `defaultRPCRequestVote`. -/
theorem completes_checkVoteTerm {msg : RequestVoteMessage} {identity : ServerIdentityNo} :
    Completes (sections info) srv (some ⟨owner, .checkVoteTerm msg identity⟩)
      (srv.defaultRPCRequestVote msg identity).1
      ((srv.defaultRPCRequestVote msg identity).2.2 ++
        [.voteReply msg (srv.defaultRPCRequestVote msg identity).2.1]) := by
  refine completes_next rfl ?_
  unfold defaultRPCRequestVote deferApply requestVoteBody
  dsimp only
  generalize (srv.checkRpcTerm msg.term identity).1 = srv
  by_cases stale : msg.term < srv.state.currentTerm
  · rw [if_pos stale]
    exact completes_next (congrArg (Section.next _) (if_pos stale)) completes_answerVote
  · rw [if_neg stale]
    refine completes_next (congrArg (Section.next _) (if_neg stale)) ?_
    by_cases greater : srv.state.currentTerm < msg.term
    · rw [if_pos greater]
      exact completes_next (if_pos greater) completes_compareIndices
    · rw [if_neg greater]
      refine completes_next (if_neg greater) ?_
      by_cases free : (srv.state.votedFor = nullServerId ∨ srv.state.votedFor = msg.candidateId) ∧
          upToDate srv.state msg.lastLogIdx msg.lastLogTerm
      · rw [if_pos free]
        exact completes_next (if_pos free) completes_answerVote
      · rw [if_neg free]
        exact completes_next (if_neg free) completes_answerVote

/-- `defaultRPCAppendEntries`. -/
theorem completes_checkAppendTerm {msg : AppendEntriesMessage} {identity : ServerIdentityNo} :
    Completes (sections info) srv (some ⟨owner, .checkAppendTerm msg identity⟩)
      (srv.defaultRPCAppendEntries msg identity).1
      ((srv.defaultRPCAppendEntries msg identity).2.2 ++
        [.appendReply msg (srv.defaultRPCAppendEntries msg identity).2.1]) := by
  refine completes_next rfl ?_
  unfold defaultRPCAppendEntries deferApply appendEntriesBody
  dsimp only
  generalize (srv.checkRpcTerm msg.term identity).1 = srv
  by_cases stale : msg.term < srv.state.currentTerm
  · rw [if_pos stale]
    exact completes_next (congrArg (Section.next _) (if_pos stale)) completes_compareIndices
  · rw [if_neg stale]
    refine completes_next (congrArg (Section.next _) (if_neg stale)) ?_
    by_cases conflict : termAt srv.state.entries msg.prevLogIdx ≠ some msg.prevLogTerm
    · rw [if_pos conflict]
      exact completes_next (congrArg (Section.next _) (if_pos conflict)) completes_compareIndices
    · rw [if_neg conflict]
      refine completes_next (congrArg (Section.next _) (if_neg conflict)) ?_
      refine completes_next rfl ?_
      by_cases behind : srv.state.commitIdx < msg.commitIdx
      · have behind' : (srv.state.replicate msg).commitIdx < msg.commitIdx := by simpa using behind
        rw [ServerState.followCommit, if_pos behind']
        refine completes_next (congrArg (Section.next _) (if_pos behind')) ?_
        exact completes_next rfl completes_compareIndices
      · have behind' : ¬ (srv.state.replicate msg).commitIdx < msg.commitIdx := by
          simpa using behind
        rw [ServerState.followCommit, if_neg behind']
        exact completes_next (congrArg (Section.next _) (if_neg behind')) completes_compareIndices

theorem completes_rpcRequestVote {msg : RequestVoteMessage} :
    Completes (sections info) srv (some ⟨owner, .dispatchRequestVote msg⟩)
      (srv.rpcRequestVote msg).1
      ((srv.rpcRequestVote msg).2.2 ++ [.voteReply msg (srv.rpcRequestVote msg).2.1]) := by
  unfold rpcRequestVote
  cases role : srv.identity
  case follower | candidate | leader =>
    exact completes_next (by simp only [Section.go, role]) completes_checkVoteTerm
  all_goals exact completes_finish (by simp only [Section.go, role]; rfl)

theorem completes_rpcAppendEntries {msg : AppendEntriesMessage} :
    Completes (sections info) srv (some ⟨owner, .dispatchAppendEntries msg⟩)
      (srv.rpcAppendEntries msg).1
      ((srv.rpcAppendEntries msg).2.2 ++ [.appendReply msg (srv.rpcAppendEntries msg).2.1]) := by
  unfold rpcAppendEntries
  cases role : srv.identity
  case follower =>
    have moved : (Section.dispatchAppendEntries msg).go info srv =
        Section.next srv (.followerTerm msg) := by simp only [Section.go, role]
    refine completes_next moved ?_
    dsimp only
    unfold followerAppendEntries
    by_cases stale : msg.term < srv.state.currentTerm
    · rw [if_pos stale]
      exact completes_finish (if_pos stale)
    · rw [if_neg stale]
      exact completes_next (if_neg stale) completes_checkAppendTerm
  case candidate =>
    have moved : (Section.dispatchAppendEntries msg).go info srv =
        Section.next srv (.candidateTerm msg) := by simp only [Section.go, role]
    refine completes_next moved ?_
    dsimp only
    unfold candidateAppendEntries
    by_cases equal : msg.term = srv.state.currentTerm
    · simp only [equal, if_true]
      refine completes_next (congrArg (Section.next _) (if_pos equal)) ?_
      exact completes_next rfl completes_checkAppendTerm
    · simp only [equal, if_false]
      exact completes_next (congrArg (Section.next _) (if_neg equal)) completes_checkAppendTerm
  case leader =>
    exact completes_next (by simp only [Section.go, role]) completes_checkAppendTerm
  all_goals exact completes_finish (by simp only [Section.go, role]; rfl)

theorem completes_rpcAddLog {msg : AddLogMessage} :
    Completes (sections info) srv (some ⟨owner, .dispatchAddLog msg⟩)
      (srv.rpcAddLog info msg).1 (srv.rpcAddLog info msg).2 := by
  unfold rpcAddLog
  cases role : srv.identity
  case leader =>
    have moved : (Section.dispatchAddLog msg).go info srv =
        Section.next srv (.readAddTerm msg) := by simp only [Section.go, role]
    refine completes_next moved (completes_next rfl ?_)
    dsimp only
    unfold addLog
    by_cases held : holdsOperation srv.state msg
    · rw [if_pos held]
      exact completes_finish (if_pos held)
    · rw [if_neg held]
      exact completes_finish (if_neg held)
  all_goals exact completes_finish (by simp only [Section.go, role])

/-! ## Transformations -/

/-- The loop of `requestVotes`. -/
theorem completes_requestVotes (srvList : List ServerId) :
    Completes (sections info) srv (some ⟨owner, .requestVotes srvList⟩)
      { srv with candidate.requests := srv.candidate.requests ++
          srvList.map (·, srv.createRequestVoteMessage info) }
      (srvList.map (.requestVote · (srv.createRequestVoteMessage info))) := by
  induction srvList generalizing srv with
  | nil =>
      simp only [List.map_nil, List.append_nil]
      exact completes_finish rfl
  | cons target srvList ih =>
      have later := @ih { srv with candidate.requests := srv.candidate.requests ++
        [(target, srv.createRequestVoteMessage info)] }
      rw [List.append_assoc] at later
      have taken : (sections info).go
          ⟨owner, .startRequest target srvList srv.state.currentTerm⟩ srv = some (_,
            [.requestVote target (srv.createRequestVoteMessage info)],
            some ⟨owner, .requestVotes srvList⟩) := rfl
      exact completes_next rfl (.more taken later)

/-- `IdentityCandidate::Impl::init`. -/
theorem completes_candidateInit :
    Completes (sections info) srv (some ⟨owner, .readOwnTerm⟩) (srv.candidateInit info).1
      (srv.candidateInit info).2 := by
  unfold candidateInit campaign
  generalize stands : { srv with
    state.currentTerm := incrementTerm srv.state.currentTerm
    state.votedFor := info.localId
    candidate.votesReceived := 1 } = standing
  dsimp only
  have taken : ∀ next, (if info.exceedsHalf 1 then Section.winAlone
      else .requestVotes info.others) = next →
      (sections info).go ⟨owner, .resetVotes⟩ { srv with
        state.currentTerm := incrementTerm srv.state.currentTerm
        state.votedFor := info.localId } =
      some (standing, [.candidacy standing.state.currentTerm], some ⟨owner, next⟩) := by
    rintro next rfl
    rw [← stands]
    rfl
  refine completes_next rfl (completes_next rfl (completes_next rfl ?_))
  by_cases alone : info.exceedsHalf 1
  · have same : (standing.notify .leader standing.state.currentTerm).state.currentTerm =
        standing.state.currentTerm := by rw [notify_state]
    rw [if_pos alone, same]
    exact .more (taken _ (if_pos alone)) (completes_next rfl (completes_requestVotes _))
  · rw [if_neg alone]
    exact .more (taken _ (if_neg alone)) (completes_requestVotes _)

/-- `Raft::Impl::transform` after `leave`. -/
theorem completes_enter {target : ServerIdentityNo} :
    Completes (sections info) srv (some ⟨owner, .assignIdentity target⟩)
      (srv.enter info target).1 (srv.enter info target).2 := by
  cases target
  case candidate =>
    have moved : (Section.assignIdentity .candidate).go info srv =
        Section.next { srv with identity := .candidate } .readOwnTerm := rfl
    exact completes_next moved completes_candidateInit
  case leader =>
    have moved : (Section.assignIdentity .leader).go info srv =
        Section.next { srv with identity := .leader } .reinitStates := rfl
    exact completes_next moved (completes_finish rfl)
  all_goals exact completes_finish rfl

/-! ## Threads -/

/-- The thread of an append request builds its message. -/
theorem completes_readCommitIdx {target : ServerId} {node : FollowerNode}
    {oldMatchIdx retryTimes : Nat} {msg : AppendEntriesMessage}
    (known : srv.leader.followerNodes target = some node)
    (thread : node.appendingThread = .trying oldMatchIdx retryTimes)
    (built : srv.createAppendEntriesMessage info node.nextIdx = some msg) :
    Completes (sections info) srv (some ⟨owner, .readCommitIdx target srv.state.currentTerm⟩)
      (srv.setNode target { node with appendingThread := .sending oldMatchIdx retryTimes msg })
      [.appendEntries target msg] := by
  obtain ⟨prevLogTerm, present, rfl⟩ := Option.map_eq_some_iff.mp built
  refine completes_next rfl (completes_finish ?_)
  simp only [Section.go, known, thread, present, Option.bind_some]

/-- It gets stuck when there is no entry before the next index. -/
theorem fails_readCommitIdx {target : ServerId} {node : FollowerNode} {term : Nat}
    {oldMatchIdx retryTimes : Nat} (known : srv.leader.followerNodes target = some node)
    (thread : node.appendingThread = .trying oldMatchIdx retryTimes)
    (missing : srv.createAppendEntriesMessage info node.nextIdx = none) :
    Fails (sections info) srv ⟨owner, .readCommitIdx target term⟩ := by
  refine .more rfl (.stuck ?_)
  have absent := Option.map_eq_none_iff.mp missing
  simp only [sections, Section.go, known, thread, absent, Option.bind_none, Option.map_none]

/-- The end of an iteration that has reached a majority. -/
theorem completes_compareCommit {idx : Nat} :
    Completes (sections info) srv (some ⟨owner, .compareCommit idx⟩) (srv.raiseCommit idx) [] := by
  unfold raiseCommit
  by_cases behind : srv.state.commitIdx < idx
  · rw [Nat.max_eq_right behind.le]
    exact completes_next (if_pos behind) (completes_finish rfl)
  · rw [Nat.max_eq_left (Nat.le_of_not_lt behind)]
    exact completes_finish (if_neg behind)

/-! ## Events -/

/-- The sections of an event, one after the other, lead to a state and emit outputs. -/
def Covers (info : ServerInfo) (srv : Server) (event : Event) (final : Server)
    (sent : List Output) : Prop :=
  ∃ after first next rest, event.start info srv = some (after, first, next) ∧
    Completes (sections info) after (next.map fun next => ⟨event.owner, next⟩) final rest ∧
    sent = first ++ rest

variable {event : Event}

theorem covers_next (starts : event.start info srv = Section.next after next)
    (completes : Completes (sections info) after (some ⟨event.owner, next⟩) final rest) :
    Covers info srv event final rest :=
  ⟨_, _, _, _, starts, completes, rfl⟩

theorem covers_finish (starts : event.start info srv = Section.finish final outputs) :
    Covers info srv event final outputs :=
  ⟨_, _, _, _, starts, .done final, (List.append_nil _).symm⟩

/-- What a server does in one step, it does in sections. -/
theorem covers_step {result : Server × List Output}
    (taken : srv.step info event = some result) :
    Covers info srv event result.1 result.2 := by
  cases event with
  | rpcRequestVote msg =>
      obtain ⟨free, rfl⟩ := step_rpcRequestVote.mp taken
      exact covers_next (if_pos free) completes_rpcRequestVote
  | rpcAppendEntries msg =>
      obtain ⟨free, rfl⟩ := step_rpcAppendEntries.mp taken
      exact covers_next (if_pos free) completes_rpcAppendEntries
  | rpcAddLog msg =>
      obtain ⟨free, rfl⟩ := step_rpcAddLog.mp taken
      exact covers_next (if_pos free) completes_rpcAddLog
  | timeout =>
      obtain ⟨role, rfl⟩ := step_timeout.mp taken
      exact covers_next (if_pos role) (completes_finish rfl)
  | transform =>
      obtain ⟨target, term, rest, queue, joined, rfl⟩ := step_transform.mp taken
      have starts : Event.transform.start info srv =
          Section.next { srv with events := rest }.leave (.assignIdentity target) := by
        simp only [Event.start, queue]
        exact if_pos joined
      exact covers_next starts completes_enter
  | receiveVote target msg reply =>
      obtain ⟨member, rfl⟩ := step_receiveVote.mp taken
      have asked := List.contains_iff_mem.mpr member
      unfold receiveVote
      by_cases refused : reply.1 ≠ msg.term ∨ reply.2 = false
      · simp only [if_pos refused]
        exact covers_finish ((if_pos asked).trans (if_pos refused))
      · simp only [if_neg refused]
        exact covers_next ((if_pos asked).trans (if_neg refused))
          (completes_next rfl (completes_finish rfl))
  | sendAppendEntries target =>
      obtain ⟨node, oldMatchIdx, retryTimes, msg, known, thread, built, rfl⟩ :=
        step_sendAppendEntries.mp taken
      have starts : (Event.sendAppendEntries target).start info srv =
          Section.next srv (.readCommitIdx target srv.state.currentTerm) := by
        simp only [Event.start, known, thread]
      exact covers_next starts (completes_readCommitIdx known thread built)
  | countReplica target =>
      obtain ⟨node, idx, known, thread, rfl⟩ := step_countReplica.mp taken
      unfold countReplica
      cases counter : srv.leader.logStates[idx]? with
      | none =>
          have starts : (Event.countReplica target).start info srv =
              Section.next (srv.finishAppending target node) (.compareIndices []) := by
            simp only [Event.start, known, thread, counter]
          rw [← List.append_nil (srv.finishAppending target node).applyReadyEntries.2]
          exact covers_next starts completes_compareIndices
      | some replicateNum =>
          by_cases majority : info.exceedsHalf (replicateNum + 1)
          · simp only [if_pos majority]
            refine covers_next ?_ completes_compareCommit
            simp only [Event.start, known, thread, counter]
            exact if_pos majority
          · simp only [if_neg majority]
            refine covers_finish ?_
            simp only [Event.start, known, thread, counter]
            exact if_neg majority
  | addLogState | startAppending | interruptAppending | failAppendEntries | receiveAppendReply =>
      exact ⟨_, _, none, _, by simp [Event.start, taken], .done _, (List.append_nil _).symm⟩

/-- What begins without being a step is the building of a message that fails. -/
theorem fails_of_start {first : List Output} {next : Option Section}
    (starts : event.start info srv = some (after, first, next))
    (disabled : srv.step info event = none) :
    ∃ target term, event = .sendAppendEntries target ∧ after = srv ∧ first = [] ∧
      next = some (.readCommitIdx target term) ∧
        Fails (sections info) srv ⟨event.owner, .readCommitIdx target term⟩ := by
  cases event with
  | rpcRequestVote | rpcAppendEntries | rpcAddLog =>
      have free := (Option.ite_none_right_eq_some.mp starts).1
      simp [step, free] at disabled
  | timeout =>
      have role := (Option.ite_none_right_eq_some.mp starts).1
      simp [step, role] at disabled
  | transform =>
      cases queue : srv.events with
      | nil => simp [Event.start, queue] at starts
      | cons head rest =>
          simp only [Event.start, queue] at starts
          have joined := (Option.ite_none_right_eq_some.mp starts).1
          simp only [step, queue, if_pos joined] at disabled
          cases disabled
  | receiveVote target msg reply =>
      have asked := List.contains_iff_mem.mp (Option.ite_none_right_eq_some.mp starts).1
      simp [step, asked] at disabled
  | sendAppendEntries target =>
      cases known : srv.leader.followerNodes target with
      | none => simp [Event.start, known] at starts
      | some node =>
          cases thread : node.appendingThread with
          | trying oldMatchIdx retryTimes =>
              simp only [Event.start, known, thread] at starts
              obtain ⟨rfl, rfl, rfl⟩ := Section.next_eq_some.mp starts
              have missing : after.createAppendEntriesMessage info node.nextIdx = none := by
                simpa [step, known, thread] using disabled
              exact ⟨target, _, rfl, rfl, rfl, rfl, fails_readCommitIdx known thread missing⟩
          | _ => simp [Event.start, known, thread] at starts
  | countReplica target =>
      cases known : srv.leader.followerNodes target with
      | none => simp [Event.start, known] at starts
      | some node =>
          cases thread : node.appendingThread with
          | counting idx => simp [step, known, thread] at disabled
          | _ => simp [Event.start, known, thread] at starts
  | addLogState | startAppending | interruptAppending | failAppendEntries | receiveAppendReply =>
      obtain ⟨result, taken, -⟩ := Option.map_eq_some_iff.mp starts
      simp [disabled] at taken

/-- The sections of a server do what its steps do. -/
theorem sections_refines (info : ServerInfo) : (sections info).Refines (step info) where
  covers srv event final sent taken := by
    obtain ⟨after, first, next, rest, starts, completes, rfl⟩ := covers_step taken
    exact ⟨after, first, _, rest, by simp [sections, starts], completes, rfl⟩
  fails srv event after first next starts disabled := by
    obtain ⟨⟨later, outputs, section'⟩, begins, same⟩ := Option.map_eq_some_iff.mp starts
    obtain ⟨rfl, rfl, rfl⟩ : later = after ∧ outputs = first ∧ _ = next := by simpa using same
    obtain ⟨target, term, -, rfl, rfl, rfl, fails⟩ := fails_of_start begins disabled
    exact ⟨rfl, rfl, _, rfl, fails⟩

end Server

/-! ## Clusters -/

namespace ThreadedCluster

open Sections (Shows)

variable {config : ClusterConfig} {before after : ThreadedCluster} {cluster : Cluster}
  {label : ServerId × Act Event}

/-- The servers look like those of a cluster whose steps are whole events. -/
def Shown (config : ClusterConfig) (threaded : ThreadedCluster) (cluster : Cluster) : Prop :=
  ∀ id, Shows (Server.sections (config.info id)) (threaded id) (cluster id).server (cluster id).sent

theorem shown_init (config : ClusterConfig) : Shown config init Cluster.init :=
  fun _ => Sections.shows_refl _ rfl

/-- What was sent can be seen, so what is delivered can be seen to be delivered. -/
theorem Shown.delivered {self : ServerId} {event : Event} (shown : Shown config before cluster)
    (delivered : before.nodes.Delivered self event) : cluster.Delivered self event := by
  have sent : ∀ id output, output ∈ (before.nodes id).sent → output ∈ (cluster id).sent :=
    fun id _ member => (shown id).sent_begins.subset member
  cases event with
  | rpcRequestVote | rpcAppendEntries | receiveVote | receiveAppendReply =>
      exact sent _ _ delivered
  | _ => trivial

/-- Nothing begins at a server while one of its threads is in the middle of its work. -/
def Undisturbed (before : ThreadedCluster) (label : ServerId × Act Event) : Prop :=
  (before label.1).Undisturbed label.2

instance (before : ThreadedCluster) (label : ServerId × Act Event) :
    Decidable (before.Undisturbed label) :=
  inferInstanceAs (Decidable ((before label.1).Undisturbed label.2))

/-- What begins meets a condition on the server and what it has sent. -/
def Starts (guard : ServerId → Node → Event → Prop) (before : ThreadedCluster)
    (label : ServerId × Act Event) : Prop :=
  (before label.1).Starts (fun server sent => guard label.1 { server, sent }) label.2

instance (guard : ServerId → Node → Event → Prop)
    [∀ id node event, Decidable (guard id node event)] (before : ThreadedCluster)
    (label : ServerId × Act Event) : Decidable (before.Starts guard label) :=
  inferInstanceAs (Decidable (Process.Starts _ _ _))

/-- When one server changes, the others look as before. -/
theorem Shown.update {cluster' : Cluster} {self : ServerId} {process : ServerProcess}
    (shown : Shown config before cluster) (others : ∀ id, id ≠ self → cluster' id = cluster id)
    (acting : Shows (Server.sections (config.info self)) process (cluster' self).server
      (cluster' self).sent) : Shown config (Function.update before self process) cluster' := by
  intro id
  by_cases same : id = self
  · subst same
    rwa [Function.update_self]
  · rw [Function.update_of_ne same, others id same]
    exact shown id

/-- A server at rest looks as it is. -/
theorem Shown.node_eq {self : ServerId} (shown : Shown config before cluster)
    (idle : (before self).running = []) : cluster self = (before self).node := by
  obtain ⟨state, sent⟩ := (shown self).eq_of_idle idle
  rw [ServerProcess.node, ← state, ← sent]

/-- Without disturbance, an event that begins is a step of the cluster, or cannot be seen because it
gets stuck. -/
theorem Shown.start {self : ServerId} {event : Event} (shown : Shown config before cluster)
    (taken : ThreadedCluster.step config before (self, .start event) = some after)
    (idle : (before self).running = []) :
    (∃ cluster', cluster.step config (self, event) = some cluster' ∧ Shown config after cluster') ∨
      (cluster self).server.step (config.info self) event = none ∧ Shown config after cluster := by
  obtain ⟨⟨listed, delivered⟩, process, moved, rfl⟩ := step_eq_some.mp taken
  have same := shown.node_eq idle
  rcases Shows.start (Server.sections_refines _) idle moved with
    ⟨final, outputs, whole, shows⟩ | ⟨disabled, shows⟩
  · left
    have whole' : (cluster self).server.step (config.info self) event = some (final, outputs) := by
      rw [same]
      exact whole
    refine ⟨Function.update cluster self
      { server := final, sent := (cluster self).sent ++ outputs }, Cluster.step_eq_some.mpr
        ⟨listed, Shown.delivered shown delivered, (final, outputs), whole', rfl⟩,
      shown.update (fun id other => Function.update_of_ne other _ _) ?_⟩
    rw [Function.update_self, same]
    exact shows
  · right
    refine ⟨?_, shown.update (fun _ _ => rfl) ?_⟩
    · rw [same]
      exact disabled
    · rw [same]
      exact shows

/-- While the work goes on, the cluster looks the same. -/
theorem Shown.go {self : ServerId} {position : Nat} (shown : Shown config before cluster)
    (taken : ThreadedCluster.step config before (self, .go position) = some after) :
    Shown config after cluster := by
  obtain ⟨-, process, moved, rfl⟩ := step_eq_some.mp taken
  exact shown.update (fun _ _ => rfl) ((shown self).go moved)

/-- Without disturbance, a section can be seen as a step of the cluster, or cannot be seen. -/
theorem Shown.step {guard : ServerId → Node → Event → Prop} (shown : Shown config before cluster)
    (taken : ThreadedCluster.step config before label = some after)
    (undisturbed : before.Undisturbed label) (starts : before.Starts guard label) :
    Shown config after cluster ∨ ∃ event cluster', cluster.step config (label.1, event) =
      some cluster' ∧ guard label.1 (cluster label.1) event ∧ Shown config after cluster' := by
  obtain ⟨self, act⟩ := label
  cases act with
  | start event =>
      rcases shown.start taken undisturbed with ⟨cluster', moved, later⟩ | ⟨-, later⟩
      · exact .inr ⟨event, cluster', moved, shown.node_eq undisturbed ▸ starts, later⟩
      · exact .inl later
  | go position => exact .inl (shown.go taken)

/-- What the steps of the cluster preserve can be seen at the end of every undisturbed run. -/
theorem exists_shown {guard : ServerId → Node → Event → Prop} {invariant : Cluster → Prop}
    (preserved : ∀ before label after, invariant before → Cluster.step config before label =
      some after → guard label.1 (before label.1) label.2 → invariant after)
    {labels : List (ServerId × Act Event)} {final : ThreadedCluster} (holds : invariant .init)
    (guarded : Execution.Along (ThreadedCluster.step config)
      (fun before label _ => before.Undisturbed label ∧ before.Starts guard label) labels init)
    (execution : Execution.run (ThreadedCluster.step config) labels init = some final) :
    ∃ cluster, Shown config final cluster ∧ invariant cluster := by
  refine Execution.invariant_of_along
    (fun before label after (shown : ∃ cluster, Shown config before cluster ∧ invariant cluster)
      taken careful => ?_) ⟨_, shown_init config, holds⟩ guarded execution
  obtain ⟨cluster, shown, holds⟩ := shown
  rcases shown.step taken careful.1 careful.2 with later | ⟨event, cluster', moved, safe, later⟩
  · exact ⟨cluster, later, holds⟩
  · exact ⟨cluster', later, preserved _ _ _ holds moved safe⟩

end ThreadedCluster

end Quintet
