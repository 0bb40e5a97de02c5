import QuintetRaft.Model.Applying

/-!
# Entries are applied in order

The events of the queue of `Apply` come from the indices `1, 2, …, lastApplied`, whatever the
threads of a server do, as long as `commitIdx` is the same when `lastApplied` is set to it as when
the entries up to it were copied.  Only the write of step 5, which takes no lock, can come between.
-/

namespace Quintet

namespace ApplyPhase

/-- The entries that a thread carries with it. -/
def entriesToApply : ApplyPhase → List (LogEntry × Nat)
  | .copied entriesToApply | .applying entriesToApply => entriesToApply
  | .entered | .ready => []

end ApplyPhase

namespace Applying

variable {Thread : Type} {applying before after : Applying Thread} {action : ApplyAction Thread}

/-- The events of the queue come from the indices up to `lastApplied`, in order and each once, and
carry what the log held there. -/
structure InOrder (applying : Applying Thread) : Prop where
  /-- No index is skipped, repeated or reordered. -/
  indices : applying.handed.map ApplyEvent.idx ++ applying.pending.map Prod.snd =
    List.range' 1 applying.state.lastApplied
  /-- An event carries the entry that the log held when it was added. -/
  contents : ∀ event ∈ applying.handed, event.held = some event.entry

/-- What the queue has executed comes from the first indices. -/
theorem InOrder.executed_prefix (inOrder : applying.InOrder) :
    applying.executed.map ApplyEvent.idx <+: List.range' 1 applying.state.lastApplied := by
  rw [← inOrder.indices, handed, List.map_append, List.append_assoc]
  exact List.prefix_append _ _

/-- When no thread is inside and the queue is empty, that is all up to `lastApplied`. -/
theorem InOrder.executed_eq (inOrder : applying.InOrder) (free : applying.inside = none)
    (drained : applying.applyQueue.q = []) :
    applying.executed.map ApplyEvent.idx = List.range' 1 applying.state.lastApplied := by
  rw [← inOrder.indices]
  simp [handed, pending, free, drained]

/-- The thread inside carries a slice of the log that starts after `lastApplied`. -/
structure Carries (applying : Applying Thread) : Prop where
  /-- What is copied starts after what was applied before. -/
  starts : ∀ thread entriesToApply, applying.inside = some (thread, .copied entriesToApply) →
    entriesToApply.map Prod.snd =
      List.range' (applying.state.lastApplied + 1) entriesToApply.length
  /-- The log still holds it. -/
  slice : ∀ thread phase, applying.inside = some (thread, phase) →
    ∀ entry idx, (entry, idx) ∈ phase.entriesToApply → applying.state.entries[idx]? = some entry

/-- What the others do leaves the thread inside, the queue and `lastApplied` alone, and the log too
while a thread is inside. -/
structure Aside (before after : Applying Thread) : Prop where
  /-- The thread inside is where it was. -/
  inside : after.inside = before.inside
  /-- No event is added or executed. -/
  handed : after.handed = before.handed
  /-- `lastAppliedM` is held. -/
  lastApplied : after.state.lastApplied = before.state.lastApplied
  /-- `entriesM` is held. -/
  entries : before.inside ≠ none → after.state.entries = before.state.entries

theorem Aside.pending (aside : Aside before after) : after.pending = before.pending := by
  rw [Applying.pending, aside.inside, ← Applying.pending]

theorem InOrder.aside (inOrder : before.InOrder) (aside : Aside before after) :
    after.InOrder where
  indices := by rw [aside.handed, aside.pending, aside.lastApplied, inOrder.indices]
  contents := by rw [aside.handed]; exact inOrder.contents

theorem Carries.aside (carries : before.Carries) (aside : Aside before after) :
    after.Carries where
  starts thread entriesToApply inside := by
    rw [aside.inside] at inside
    rw [aside.lastApplied]
    exact carries.starts thread entriesToApply inside
  slice thread phase inside := by
    rw [aside.inside] at inside
    rw [aside.entries (by simp [inside])]
    exact carries.slice thread phase inside

/-- A thread that has copied nothing carries nothing. -/
theorem Carries.of_empty (empty : ∀ thread phase, applying.inside = some (thread, phase) →
    phase.entriesToApply = []) : applying.Carries where
  starts thread entriesToApply inside := by
    obtain rfl : entriesToApply = [] := empty thread _ inside
    rfl
  slice thread phase inside entry idx member := by simp [empty thread phase inside] at member

/-- When `lastApplied` is set, `commitIdx` is what it was when the entries were copied. -/
def ReadsAgree (before : Applying Thread) (action : ApplyAction Thread) (_ : Applying Thread) :
    Prop :=
  action = .advance → ∀ thread entriesToApply,
    before.inside = some (thread, .copied entriesToApply) →
      before.state.commitIdx = before.state.lastApplied + entriesToApply.length

/-- A copied slice of the log. -/
theorem mem_slice {entries : List LogEntry} {first last idx : Nat} {entry : LogEntry}
    (member : (entry, idx) ∈ (entries.zipIdx.take last).drop first) :
    entries[idx]? = some entry := by
  have whole := List.mem_of_mem_take (List.mem_of_mem_drop member)
  simpa using List.mem_zipIdx_iff_getElem?.mp whole

theorem map_snd_slice {entries : List LogEntry} (first : Nat) {last : Nat}
    (inside : last ≤ entries.length) :
    ((entries.zipIdx.take last).drop first).map Prod.snd = List.range' first (last - first) := by
  rw [List.map_drop, List.map_take, List.zipIdx_map_snd, List.take_range'_of_length_ge inside,
    List.drop_range']
  simp

/-- The thread inside goes on carrying a slice of the log. -/
theorem Carries.advance {thread : Thread} {phase : ApplyPhase} (carries : before.Carries)
    (inside : before.inside = some (thread, phase))
    (taken : before.advance thread phase = some after) : after.Carries := by
  cases phase with
  | entered =>
      obtain rfl := Option.some.inj taken
      refine .of_empty fun _ phase later => ?_
      dsimp only at later
      split_ifs at later
      obtain ⟨-, rfl⟩ := Prod.mk.inj (Option.some.inj later)
      rfl
  | ready =>
      obtain ⟨⟨-, bounded⟩, rfl⟩ := Execution.guarded_eq_some.mp taken
      refine ⟨fun _ entriesToApply later => ?_, fun _ phase later entry idx member => ?_⟩
      · simp only [Option.some.injEq, Prod.mk.injEq, ApplyPhase.copied.injEq] at later
        obtain ⟨-, rfl⟩ := later
        have indices := map_snd_slice (before.state.lastApplied + 1)
          (Nat.succ_le_of_lt bounded)
        have length := congrArg List.length indices
        rw [List.length_map, List.length_range'] at length
        rw [length]
        exact indices
      · obtain ⟨-, rfl⟩ := Prod.mk.inj (Option.some.inj later)
        exact mem_slice member
  | copied entriesToApply =>
      obtain rfl := Option.some.inj taken
      refine ⟨fun _ _ later => by simp at later, fun _ phase later entry idx member => ?_⟩
      obtain ⟨-, rfl⟩ := Prod.mk.inj (Option.some.inj later)
      exact carries.slice thread _ inside entry idx member
  | applying entriesToApply =>
      cases entriesToApply with
      | nil =>
          obtain rfl := Option.some.inj taken
          exact .of_empty (by simp)
      | cons first rest =>
          obtain rfl := Option.some.inj taken
          refine ⟨fun _ _ later => by simp at later, fun _ phase later entry idx member => ?_⟩
          obtain ⟨-, rfl⟩ := Prod.mk.inj (Option.some.inj later)
          exact carries.slice thread _ inside entry idx (List.mem_cons_of_mem _ member)

/-- The thread inside keeps the order exactly when its reads of `commitIdx` agree. -/
theorem InOrder.advance_iff {thread : Thread} {phase : ApplyPhase} (inOrder : before.InOrder)
    (carries : before.Carries) (inside : before.inside = some (thread, phase))
    (taken : before.advance thread phase = some after) :
    after.InOrder ↔ ∀ entriesToApply, phase = .copied entriesToApply →
      before.state.commitIdx = before.state.lastApplied + entriesToApply.length := by
  have indices := inOrder.indices
  rw [pending, inside] at indices
  cases phase with
  | entered =>
      obtain rfl := Option.some.inj taken
      refine iff_of_true ⟨?_, inOrder.contents⟩ (by simp)
      rw [← indices, pending]
      dsimp only
      split_ifs <;> rfl
  | ready =>
      obtain ⟨-, rfl⟩ := Execution.guarded_eq_some.mp taken
      exact iff_of_true ⟨indices, inOrder.contents⟩ (by simp)
  | copied entriesToApply =>
      obtain rfl := Option.some.inj taken
      have starts := carries.starts thread entriesToApply inside
      have all : before.handed.map ApplyEvent.idx ++ entriesToApply.map Prod.snd =
          List.range' 1 (before.state.lastApplied + entriesToApply.length) := by
        rw [List.map_nil, List.append_nil] at indices
        rw [indices, starts, Nat.add_comm before.state.lastApplied 1, List.range'_append_1]
      constructor
      · rintro ⟨later, -⟩ copied ⟨⟩
        have length := congrArg List.length (later.symm.trans all)
        simpa using length
      · intro agree
        refine ⟨?_, inOrder.contents⟩
        rw [agree entriesToApply rfl]
        exact all
  | applying entriesToApply =>
      cases entriesToApply with
      | nil =>
          obtain rfl := Option.some.inj taken
          exact iff_of_true ⟨indices, inOrder.contents⟩ (by simp)
      | cons first rest =>
          obtain ⟨entry, idx⟩ := first
          obtain rfl := Option.some.inj taken
          refine iff_of_true ⟨?_, ?_⟩ (by simp)
          · rw [← indices]
            simp [handed, pending]
          · have logged := carries.slice thread _ inside entry idx List.mem_cons_self
            intro event member
            rw [handed, EventQueue.addEvent_q, ← List.append_assoc] at member
            rcases List.mem_append.mp member with old | new
            · exact inOrder.contents event old
            · obtain rfl := List.mem_singleton.mp new
              simp [logged]

section Step

variable [DecidableEq Thread]

/-- Everything but the destructor and the queue is done aside. -/
theorem step_aside (taken : before.step action = some after)
    (other : match action with
      | .enter _ | .advance | .execute => False
      | _ => True) : Aside before after := by
  cases action with
  | addLog msg term =>
      obtain ⟨free, rfl⟩ := Execution.guarded_eq_some.mp taken
      exact ⟨rfl, rfl, by dsimp only; split_ifs <;> rfl, fun held => absurd free held⟩
  | appendEntries msg =>
      obtain ⟨free, rfl⟩ := Execution.guarded_eq_some.mp taken
      exact ⟨rfl, rfl, by simp, fun held => absurd free held⟩
  | raiseCommit idx =>
      obtain ⟨-, rfl⟩ := Execution.guarded_eq_some.mp taken
      exact ⟨rfl, rfl, rfl, fun _ => rfl⟩
  | readCommit thread commitIdx =>
      obtain ⟨-, rfl⟩ := Execution.guarded_eq_some.mp taken
      exact ⟨rfl, rfl, rfl, fun _ => rfl⟩
  | writeCommit thread =>
      obtain ⟨commitIdx, -, rfl⟩ := Option.map_eq_some_iff.mp taken
      exact ⟨rfl, rfl, rfl, fun _ => rfl⟩
  | enter thread => exact other.elim
  | advance => exact other.elim
  | execute => exact other.elim

/-- A step keeps the order exactly when the reads of `commitIdx` agree, and what is carried is a
slice of the log after every step. -/
theorem inOrder_step (inOrder : before.InOrder) (carries : before.Carries)
    (taken : before.step action = some after) :
    (after.InOrder ↔ ReadsAgree before action after) ∧ after.Carries := by
  cases action with
  | advance =>
      obtain ⟨⟨thread, phase⟩, inside, moved⟩ := Option.bind_eq_some_iff.mp taken
      refine ⟨(inOrder.advance_iff carries inside moved).trans ?_, carries.advance inside moved⟩
      simp only [ReadsAgree, inside, Option.some.injEq, Prod.mk.injEq, true_imp_iff]
      exact ⟨fun agree _ entriesToApply copied => agree entriesToApply copied.2,
        fun agree entriesToApply copied => agree thread entriesToApply ⟨rfl, copied⟩⟩
  | enter thread =>
      obtain ⟨⟨free, -⟩, rfl⟩ := Execution.guarded_eq_some.mp taken
      have indices := inOrder.indices
      rw [pending, free] at indices
      refine ⟨iff_of_true ⟨indices, inOrder.contents⟩ (by simp [ReadsAgree]), .of_empty ?_⟩
      rintro _ _ ⟨⟩
      rfl
  | execute =>
      obtain ⟨⟨event, applyQueue⟩, next, rfl⟩ := Option.map_eq_some_iff.mp taken
      obtain ⟨-, front, -⟩ := EventQueue.next_eq_some next
      have same : before.handed = before.executed ++ [event] ++ applyQueue.q := by
        rw [handed, front, List.append_assoc, List.singleton_append]
      have kept := inOrder.indices
      have contents := inOrder.contents
      rw [same] at kept contents
      exact ⟨iff_of_true ⟨kept, contents⟩ (by simp [ReadsAgree]), carries.starts, carries.slice⟩
  | _ =>
      have aside := step_aside taken trivial
      exact ⟨iff_of_true (inOrder.aside aside) (by simp [ReadsAgree]), carries.aside aside⟩

end Step

/-! ## The write without a lock -/

/-- Step 5 changes the commit index while a thread is inside. -/
def WritesInside (before : Applying Thread) (action : ApplyAction Thread) : Prop :=
  before.inside ≠ none ∧ ∃ thread, action = .writeCommit thread ∧
    ∃ commitIdx ∈ before.following thread, commitIdx ≠ before.state.commitIdx

/-- The entries copied end at the commit index. -/
def Settled (applying : Applying Thread) : Prop :=
  ∀ thread entriesToApply, applying.inside = some (thread, .copied entriesToApply) →
    applying.state.commitIdx = applying.state.lastApplied + entriesToApply.length

theorem Settled.of_not_copied
    (other : ∀ thread entriesToApply, applying.inside ≠ some (thread, .copied entriesToApply)) :
    applying.Settled := fun thread _ inside => absurd inside (other thread _)

/-- The copy is made up to the commit index. -/
theorem Settled.advance {thread : Thread} {phase : ApplyPhase}
    (taken : before.advance thread phase = some after) : after.Settled := by
  cases phase with
  | entered =>
      obtain rfl := Option.some.inj taken
      refine .of_not_copied fun _ _ => ?_
      dsimp only
      split_ifs <;> simp
  | ready =>
      obtain ⟨⟨ordered, bounded⟩, rfl⟩ := Execution.guarded_eq_some.mp taken
      intro _ entriesToApply copied
      simp only [Option.some.injEq, Prod.mk.injEq, ApplyPhase.copied.injEq] at copied
      obtain ⟨-, rfl⟩ := copied
      rw [List.length_drop, List.length_take, List.length_zipIdx]
      dsimp only
      omega
  | copied entriesToApply =>
      obtain rfl := Option.some.inj taken
      exact .of_not_copied (by simp)
  | applying entriesToApply =>
      cases entriesToApply <;> obtain rfl := Option.some.inj taken <;>
        exact .of_not_copied (by simp)

theorem inOrder_init : InOrder ({} : Applying Thread) := ⟨rfl, by simp [handed]⟩

variable [DecidableEq Thread]

/-- Nothing else changes the commit index meanwhile. -/
theorem Settled.step (settled : before.Settled) (taken : before.step action = some after)
    (keeps : ¬ WritesInside before action) : after.Settled := by
  cases action with
  | advance =>
      obtain ⟨⟨thread, phase⟩, -, moved⟩ := Option.bind_eq_some_iff.mp taken
      exact .advance moved
  | enter thread =>
      obtain ⟨-, rfl⟩ := Execution.guarded_eq_some.mp taken
      exact .of_not_copied (by simp)
  | writeCommit thread =>
      obtain ⟨commitIdx, reads, rfl⟩ := Option.map_eq_some_iff.mp taken
      intro owner entriesToApply inside
      have same : commitIdx = before.state.commitIdx := by
        by_contra other
        exact keeps ⟨by simp [show before.inside = _ from inside], thread, rfl, commitIdx, reads,
          other⟩
      rw [← settled owner entriesToApply inside]
      exact same
  | raiseCommit idx =>
      obtain ⟨free, rfl⟩ := Execution.guarded_eq_some.mp taken
      exact .of_not_copied (by simp [free])
  | addLog msg term =>
      have aside := step_aside taken trivial
      obtain ⟨free, -⟩ := Execution.guarded_eq_some.mp taken
      exact .of_not_copied (by simp [aside.inside, free])
  | appendEntries msg =>
      have aside := step_aside taken trivial
      obtain ⟨free, -⟩ := Execution.guarded_eq_some.mp taken
      exact .of_not_copied (by simp [aside.inside, free])
  | readCommit thread commitIdx =>
      obtain ⟨-, rfl⟩ := Execution.guarded_eq_some.mp taken
      exact settled
  | execute =>
      obtain ⟨_, -, rfl⟩ := Option.map_eq_some_iff.mp taken
      exact settled

/-- Along a run the events of the queue come from the indices `1, 2, …, lastApplied` exactly when,
whenever `lastApplied` is set, the commit index is what it was when the entries were copied.  In
particular they do when step 5 never changes the commit index while a thread is inside. -/
theorem inOrder_iff (actions : List (ApplyAction Thread)) :
    (Execution.Along step (fun _ _ after => after.InOrder) actions ({} : Applying Thread) ↔
        Execution.Along step ReadsAgree actions {}) ∧
      (Execution.Along step (fun before action _ => ¬ WritesInside before action) actions
          ({} : Applying Thread) →
        Execution.Along step (fun _ _ after => after.InOrder) actions {}) := by
  have start : ({} : Applying Thread).InOrder ∧ ({} : Applying Thread).Carries :=
    ⟨inOrder_init, .of_empty (by simp)⟩
  have equivalent : Execution.Along step (fun _ _ after => after.InOrder) actions
      ({} : Applying Thread) ↔ Execution.Along step ReadsAgree actions {} := by
    refine Execution.along_congr_of_invariant
      (fun before action after (kept : before.InOrder ∧ before.Carries) taken => ?_)
      (fun before action after kept taken agree => ?_) start
    · exact (inOrder_step kept.1 kept.2 taken).1
    · obtain ⟨ordered, carries⟩ := inOrder_step kept.1 kept.2 taken
      exact ⟨ordered.mpr agree, carries⟩
  refine ⟨equivalent, fun keeps => equivalent.mpr ?_⟩
  have preserved := fun (before : Applying Thread) action after (settled : before.Settled)
    (taken : before.step action = some after) (keeps : ¬ WritesInside before action) =>
    show after.Settled ∧ ReadsAgree before action after from
      ⟨settled.step taken keeps, fun _ => settled⟩
  exact Execution.along_of_invariant preserved (.of_not_copied (by simp)) keeps

/-- A command of a client. -/
def leaderCommand : AddLogMessage :=
  { opName := "add", args := "1", srvId := { addr := "localhost", port := 1 } }

/-- The message of the leader of a later term, which carries another command. -/
def laterMessage : AppendEntriesMessage :=
  { term := 2
    leaderId := { addr := "localhost", port := 3 }
    prevLogIdx := 1
    prevLogTerm := 1
    logEntries := [Server.logEntry { leaderCommand with prmIdx := 1 } 2]
    commitIdx := 2 }

/-- Thread 0 is the appending thread of a leader that has committed its first entry, thread 1 the
handler of the message, which writes the commit index after thread 0 has copied the entry. -/
def tornPassage : List (ApplyAction Nat) :=
  [.addLog leaderCommand 1, .raiseCommit 1, .appendEntries laterMessage,
    .enter 0, .advance, .advance, .readCommit 1 laterMessage.commitIdx, .writeCommit 1,
    .advance, .advance, .advance, .enter 1, .advance, .execute]

/-- The second index is skipped: it counts as applied, and only the first entry has been handed
over, although the commit index has pointed into the log all the time. -/
theorem inOrder_counterexample :
    Execution.Along step (fun _ _ after => after.state.commitIdx < after.state.entries.length)
        tornPassage ({} : Applying Nat) ∧
      ∃ final ∈ Execution.run step tornPassage ({} : Applying Nat),
        final.executed.map ApplyEvent.idx = [1] ∧ final.state.lastApplied = 2 ∧
          final.inside = none ∧ final.applyQueue.q = [] ∧ ¬ final.InOrder := by
  refine ⟨by decide +kernel, ?_⟩
  have fails : ∃ final ∈ Execution.run step tornPassage ({} : Applying Nat),
      final.executed.map ApplyEvent.idx = [1] ∧ final.state.lastApplied = 2 ∧
        final.inside = none ∧ final.applyQueue.q = [] := by
    decide +kernel
  obtain ⟨final, execution, skipped, caughtUp, free, drained⟩ := fails
  refine ⟨final, execution, skipped, caughtUp, free, drained, fun inOrder => ?_⟩
  have whole := inOrder.executed_eq free drained
  rw [skipped, caughtUp] at whole
  exact absurd whole (by decide)

end Applying

end Quintet
