import QuintetRaft.Model.EventQueue
import QuintetRaft.Model.Outputs
import QuintetRaft.Library.Execution

/-!
# Applying entries, read by read

`IdentityBaseImpl::applyReadyEntries` as the threads of a server run it, cut at its reads of
`commitIdx` and at the additions to the queue of `Apply`.  The destructor holds `entriesM` and
`commitIdxM` shared and `lastAppliedM` exclusively, so one thread at a time is inside, and the log
and the commit index of a leader do not change meanwhile.  Step 5 of `defaultRPCAppendEntries`
declares its locks with `defer_lock` and never takes them.
-/

namespace Quintet

/-- A call of the bound function that waits in the queue of `Apply`.  No step reads the last two
fields. -/
structure ApplyEvent where
  /-- The argument of the call. -/
  entry : BasicLogEntry
  /-- History: the index the entry was copied from. -/
  idx : Nat
  /-- History: what the log held at this index when the event was added. -/
  held : Option BasicLogEntry
  deriving DecidableEq, Repr

/-- How far a thread is inside `applyReadyEntries`. -/
inductive ApplyPhase
  /-- It has taken the three locks. -/
  | entered
  /-- It has found `lastApplied` behind `commitIdx`. -/
  | ready
  /-- It has copied entries, which are kept with their indices. -/
  | copied (entriesToApply : List (LogEntry × Nat))
  /-- It has written `lastApplied`, and has these entries left to add. -/
  | applying (entriesToApply : List (LogEntry × Nat))
  deriving DecidableEq, Repr

/-- The part of a server that its threads share when they apply entries. -/
structure Applying (Thread : Type) where
  /-- The shared state of the server. -/
  state : ServerState := {}
  /-- The thread that holds the three locks. -/
  inside : Option (Thread × ApplyPhase) := none
  /-- The handlers that are about to write a commit index in step 5. -/
  following : Thread → Option Nat := fun _ => none
  /-- The queue of `Apply`. -/
  applyQueue : EventQueue ApplyEvent := {}
  /-- History: the events the queue has executed, oldest first. -/
  executed : List ApplyEvent := []

/-- What the threads of a server do. -/
inductive ApplyAction (Thread : Type)
  /-- `IdentityLeader::Impl::addLog` under `entriesM`, with the term it has read. -/
  | addLog (msg : AddLogMessage) (term : Nat)
  /-- Steps 3 and 4 of `defaultRPCAppendEntries` under `entriesM`. -/
  | appendEntries (msg : AppendEntriesMessage)
  /-- The counting loop of `tryAppendEntries` under `commitIdxM`. -/
  | raiseCommit (idx : Nat)
  /-- A handler makes the comparison of step 5. -/
  | readCommit (thread : Thread) (commitIdx : Nat)
  /-- It writes the commit index. -/
  | writeCommit (thread : Thread)
  /-- A thread enters the destructor and takes the three locks. -/
  | enter (thread : Thread)
  /-- The thread inside goes on. -/
  | advance
  /-- The thread of the queue executes an event. -/
  | execute
  deriving DecidableEq

namespace Applying

variable {Thread : Type} [DecidableEq Thread]

/-- The next read, write or addition of the thread that holds the locks. -/
def advance (thread : Thread) (applying : Applying Thread) :
    ApplyPhase → Option (Applying Thread)
  | .entered =>
      some { applying with
        inside :=
          if applying.state.commitIdx ≤ applying.state.lastApplied then none
          else some (thread, .ready) }
  | .ready =>
      -- the vector is built from a range, which is undefined for any other bounds
      if applying.state.lastApplied ≤ applying.state.commitIdx ∧
          applying.state.commitIdx < applying.state.entries.length then
        some { applying with
          inside := some (thread, .copied
            ((applying.state.entries.zipIdx.take (applying.state.commitIdx + 1)).drop
              (applying.state.lastApplied + 1))) }
      else none
  | .copied entriesToApply =>
      some { applying with
        state := { applying.state with lastApplied := applying.state.commitIdx }
        inside := some (thread, .applying entriesToApply) }
  | .applying ((entry, idx) :: entriesToApply) =>
      some { applying with
        applyQueue := applying.applyQueue.addEvent
          { entry := entry.toBasic, idx, held := applying.state.entries[idx]?.map LogEntry.toBasic }
        inside := some (thread, .applying entriesToApply) }
  | .applying [] => some { applying with inside := none }

/-- One step of a thread. -/
def step (applying : Applying Thread) : ApplyAction Thread → Option (Applying Thread)
  | .addLog msg term =>
      if applying.inside = none then
        some { applying with
          state :=
            if Server.holdsOperation applying.state msg then applying.state
            else { applying.state with
              entries := applying.state.entries ++ [Server.logEntry msg term]
              entries_ne := by simp } }
      else none
  | .appendEntries msg =>
      if applying.inside = none then
        some { applying with state := applying.state.replicate msg }
      else none
  | .raiseCommit idx =>
      if applying.inside = none then
        some { applying with
          state := { applying.state with commitIdx := max applying.state.commitIdx idx } }
      else none
  | .readCommit thread commitIdx =>
      if applying.following thread = none ∧ applying.inside.map Prod.fst ≠ some thread then
        some { applying with
          following := Function.update applying.following thread
            (if applying.state.commitIdx < commitIdx then
              some (min commitIdx (applying.state.entries.length - 1))
            else none) }
      else none
  | .writeCommit thread =>
      (applying.following thread).map fun commitIdx =>
        { applying with
          state := { applying.state with commitIdx }
          following := Function.update applying.following thread none }
  | .enter thread =>
      if applying.inside = none ∧ applying.following thread = none then
        some { applying with inside := some (thread, .entered) }
      else none
  | .advance => applying.inside.bind fun (thread, phase) => applying.advance thread phase
  | .execute =>
      applying.applyQueue.next.map fun (event, applyQueue) =>
        { applying with applyQueue, executed := applying.executed ++ [event] }

/-- The events that have been added to the queue, in their order. -/
def handed (applying : Applying Thread) : List ApplyEvent :=
  applying.executed ++ applying.applyQueue.q

/-- The entries that the thread inside has left to add. -/
def pending (applying : Applying Thread) : List (LogEntry × Nat) :=
  match applying.inside with
  | some (_, .applying entriesToApply) => entriesToApply
  | _ => []

/-! ## A passage that nobody disturbs -/

theorem run_advance {thread : Thread} {phase : ApplyPhase} {applying : Applying Thread}
    (inside : applying.inside = some (thread, phase)) (count : Nat) :
    Execution.run step (List.replicate (count + 1) .advance) applying =
      (applying.advance thread phase).bind
        (Execution.run step (List.replicate count .advance)) := by
  simp only [List.replicate_succ, Execution.run, step, inside, Option.bind_some]

/-- Add the entries that are left, and leave. -/
theorem run_applying {thread : Thread} (entriesToApply : List (LogEntry × Nat))
    (applying : Applying Thread)
    (inside : applying.inside = some (thread, .applying entriesToApply)) :
    ∃ final,
      Execution.run step (List.replicate (entriesToApply.length + 1) .advance) applying =
        some final ∧
      final.inside = none ∧ final.state = applying.state ∧
      final.handed.map ApplyEvent.entry = applying.handed.map ApplyEvent.entry ++
        entriesToApply.map fun pair => pair.1.toBasic := by
  induction entriesToApply generalizing applying with
  | nil =>
      rw [run_advance inside]
      exact ⟨_, rfl, rfl, rfl, by simp [handed]⟩
  | cons first rest ih =>
      obtain ⟨entry, idx⟩ := first
      obtain ⟨final, execution, left, same, added⟩ := ih
        { applying with
          applyQueue := applying.applyQueue.addEvent
            { entry := entry.toBasic, idx
              held := applying.state.entries[idx]?.map LogEntry.toBasic }
          inside := some (thread, .applying rest) } rfl
      rw [List.length_cons, run_advance inside]
      refine ⟨final, execution, left, same, ?_⟩
      rw [added]
      simp [handed]

/-- A thread that passes through the destructor alone does what `applyReadyEntries` does in one
step. -/
theorem run_applyReadyEntries (thread : Thread) (applying : Applying Thread) (srv : Server)
    (free : applying.inside = none) (idle : applying.following thread = none)
    (same : applying.state = srv.state)
    (bounded : srv.state.commitIdx < srv.state.entries.length) :
    ∃ count final,
      Execution.run step (.enter thread :: List.replicate count .advance) applying =
        some final ∧
      final.inside = none ∧ final.state = srv.applyReadyEntries.1.state ∧
      final.handed.map ApplyEvent.entry =
        applying.handed.map ApplyEvent.entry ++ applied srv.applyReadyEntries.2 := by
  have enters : applying.step (.enter thread) =
      some { applying with inside := some (thread, .entered) } := if_pos ⟨free, idle⟩
  simp only [Execution.run, enters, Option.bind_some]
  by_cases caughtUp : srv.state.commitIdx ≤ srv.state.lastApplied
  · refine ⟨0 + 1, { applying with inside := none }, ?_, rfl, ?_, ?_⟩
    · rw [run_advance rfl]
      simp [advance, Execution.run, same, caughtUp]
    · simp [Server.applyReadyEntries, caughtUp, same]
    · simp [Server.applyReadyEntries, caughtUp, handed]
  · let entriesToApply :=
      (srv.state.entries.zipIdx.take (srv.state.commitIdx + 1)).drop (srv.state.lastApplied + 1)
    obtain ⟨final, execution, left, kept, added⟩ := run_applying entriesToApply
      { applying with
        state := { srv.state with lastApplied := srv.state.commitIdx }
        inside := some (thread, .applying entriesToApply) } rfl
    refine ⟨entriesToApply.length + 1 + 3, final, ?_, left, ?_, ?_⟩
    · rw [← execution, run_advance rfl]
      simp only [advance, same, if_neg caughtUp, Option.bind_some]
      rw [run_advance rfl]
      simp only [advance, bounded, Nat.le_of_not_le caughtUp, and_self, if_true,
        Option.bind_some]
      rw [run_advance rfl]
      rfl
    · rw [kept]
      simp [Server.applyReadyEntries, caughtUp]
    · rw [added]
      have copied : entriesToApply.map (fun pair => pair.1.toBasic) =
          ((srv.state.entries.take (srv.state.commitIdx + 1)).drop
            (srv.state.lastApplied + 1)).map LogEntry.toBasic := by
        conv_rhs => rw [← List.zipIdx_map_fst 0 srv.state.entries]
        rw [← List.map_take, ← List.map_drop, List.map_map]
        rfl
      simp [Server.applyReadyEntries, caughtUp, copied, handed, applied]

end Applying

end Quintet
