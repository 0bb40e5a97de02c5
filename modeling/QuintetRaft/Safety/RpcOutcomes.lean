import Mathlib.Data.List.Nodup
import QuintetRaft.Library.Execution
import QuintetRaft.Model.RpcClients

/-!
# Outcomes of remote procedure calls

The loop of `run` sets promises up to the first call that has failed, and then never again.
-/

namespace Quintet

variable {Target Pb R : Type} {kind : ClientKind Target Pb R}
  {client before after : AsyncClient Pb R}
  {event : ClientEvent Target Pb} {events : List (ClientEvent Target Pb)}
  {calls rest : List (FinishedCall Pb)}

/-! ## The calls that are served -/

/-- The calls up to the first one with an error. -/
def served : List (FinishedCall Pb) → List (FinishedCall Pb)
  | [] => []
  | call :: rest => if call.status.ok then call :: served rest else [call]

theorem served_of_ok (ok : ∀ call ∈ calls, call.status.ok = true) : served calls = calls := by
  induction calls with
  | nil => rfl
  | cons call rest ih =>
      obtain ⟨first, others⟩ := List.forall_mem_cons.mp ok
      rw [served, if_pos first, ih others]

theorem served_append_of_ok (ok : ∀ call ∈ calls, call.status.ok = true) :
    served (calls ++ rest) = calls ++ served rest := by
  induction calls with
  | nil => rfl
  | cons call others ih =>
      obtain ⟨first, later⟩ := List.forall_mem_cons.mp ok
      rw [List.cons_append, served, if_pos first, ih later, List.cons_append]

theorem served_prefix (calls : List (FinishedCall Pb)) : served calls <+: calls := by
  induction calls with
  | nil => exact List.prefix_rfl
  | cons call rest ih =>
      unfold served
      split_ifs
      · exact (List.prefix_cons_inj call).mpr ih
      · exact ⟨rest, rfl⟩

/-- All calls are served exactly when none but the last one has failed. -/
theorem served_eq_iff : served calls = calls ↔ ∀ call ∈ calls.dropLast, call.status.ok = true := by
  induction calls with
  | nil => simp [served]
  | cons call rest ih =>
      cases rest with
      | nil => simp [served]
      | cons second rest =>
          rw [served, List.dropLast_cons_cons, List.forall_mem_cons, ← ih]
          split_ifs with ok
          · simp [ok]
          · simp [ok]

namespace ClientKind

/-- A promise that has been set, and what to. -/
def entry (kind : ClientKind Target Pb R) (call : FinishedCall Pb) : Nat × Outcome R :=
  (call.call, kind.outcome call)

/-! ## The loop -/

/-- What the loop has taken: some calls without an error; then it may have taken one with an error,
or found the queue shut down and empty. -/
inductive Taken (client : AsyncClient Pb R) (calls : List (FinishedCall Pb)) : Prop
  | going (waits : client.runningThread ≠ .returned) (ok : ∀ call ∈ calls, call.status.ok = true)
  | failed (ended : client.runningThread = .returned) (front : List (FinishedCall Pb))
      (last : FinishedCall Pb) (split : calls = front ++ [last])
      (ok : ∀ call ∈ front, call.status.ok = true) (bad : last.status.ok = false)
  | stopped (ended : client.runningThread = .returned) (drained : client.cq = [])
      (alone : client.pending = []) (down : client.isShutdown = true)
      (ok : ∀ call ∈ calls, call.status.ok = true)

/-- The books of a client. -/
structure Books (kind : ClientKind Target Pb R) (client : AsyncClient Pb R) : Prop where
  /-- The finished calls have been taken in order, and their promises set. -/
  taken : ∃ calls, client.finished = calls ++ client.cq ∧ client.prms = calls.map kind.entry ∧
    Taken client calls
  /-- Every call is finished at most once. -/
  nodup : (client.finished.map FinishedCall.call ++ client.pending).Nodup
  /-- The calls are numbered. -/
  below : ∀ call ∈ client.finished.map FinishedCall.call ++ client.pending, call < client.issued

theorem books_fresh (started : Bool) : kind.Books (AsyncClient.fresh started) where
  taken := ⟨[], rfl, rfl, .going (by cases started <;> simp [AsyncClient.fresh]) (by simp)⟩
  nodup := by simp [AsyncClient.fresh]
  below := by simp [AsyncClient.fresh]

theorem Taken.ok_of_running (taken : Taken client calls)
    (running : client.runningThread = .running) : ∀ call ∈ calls, call.status.ok = true := by
  cases taken with
  | going _ ok => exact ok
  | failed ended => exact absurd (running.symm.trans ended) (by decide)
  | stopped ended => exact absurd (running.symm.trans ended) (by decide)

/-- A turn of the loop. -/
theorem Books.next (books : kind.Books before) (taken : kind.next before = some after) :
    kind.Books after := by
  obtain ⟨calls, finished, prms, going⟩ := books.taken
  rw [ClientKind.next] at taken
  obtain ⟨running, taken⟩ := Option.ite_none_right_eq_some.mp taken
  have ok := going.ok_of_running running
  cases queue : before.cq with
  | nil =>
      rw [queue] at taken finished
      obtain ⟨⟨down, alone⟩, taken⟩ := Option.ite_none_right_eq_some.mp taken
      obtain rfl := Option.some.inj taken
      exact
        { taken := ⟨calls, finished, prms, .stopped rfl rfl alone down ok⟩
          nodup := books.nodup
          below := books.below }
  | cons call rest =>
      rw [queue] at taken finished
      obtain rfl := Option.some.inj taken
      refine
        { taken := ⟨calls ++ [call], by simp [finished], by simp [prms, entry], ?_⟩
          nodup := books.nodup
          below := books.below }
      cases good : call.status.ok with
      | true => exact .going (by simp) (by simpa [or_imp, forall_and, good] using ok)
      | false => exact .failed (by simp) calls call rfl ok good

/-- Nothing but a turn of the loop takes calls. -/
theorem Taken.mono (taken : Taken before calls)
    (thread : after.runningThread = before.runningThread)
    (down : before.isShutdown = true → after.isShutdown = true)
    (idle : before.isShutdown = true → before.pending = [] →
      after.pending = [] ∧ after.cq = before.cq) : Taken after calls := by
  cases taken with
  | going waits ok => exact .going (thread ▸ waits) ok
  | failed ended front last split ok bad =>
      exact .failed (thread.trans ended) front last split ok bad
  | stopped ended drained alone stopped ok =>
      obtain ⟨still, same⟩ := idle stopped alone
      exact .stopped (thread.trans ended) (same.trans drained) still (down stopped) ok

theorem Books.step (books : kind.Books before) (taken : kind.step before event = some after) :
    kind.Books after := by
  obtain ⟨calls, finished, prms, going⟩ := books.taken
  cases event with
  | next => exact books.next taken
  | asyncRun =>
      obtain ⟨waits, taken⟩ := Option.ite_none_right_eq_some.mp taken
      obtain rfl := Option.some.inj taken
      cases going with
      | going _ ok => exact ⟨⟨calls, finished, prms, .going (by simp) ok⟩, books.nodup, books.below⟩
      | failed ended => exact absurd (waits.symm.trans ended) (by decide)
      | stopped ended => exact absurd (waits.symm.trans ended) (by decide)
  | asyncCall target =>
      obtain ⟨up, taken⟩ := Option.ite_none_left_eq_some.mp taken
      obtain rfl := Option.some.inj taken
      unfold ClientKind.asyncCall
      split_ifs with known
      · have unused : before.issued ∉
            before.finished.map FinishedCall.call ++ before.pending :=
          fun member => Nat.lt_irrefl _ (books.below _ member)
        refine
          { taken := ⟨calls, finished, prms,
              going.mono rfl id fun down => absurd down up⟩
            nodup := ?_
            below := ?_ }
        · rw [← List.append_assoc]
          exact books.nodup.append (List.nodup_singleton _)
            (List.disjoint_singleton.mpr unused)
        · intro call member
          rw [← List.append_assoc, List.mem_append, List.mem_singleton] at member
          rcases member with old | rfl
          · exact Nat.lt_succ_of_lt (books.below call old)
          · exact Nat.lt_succ_self _
      · exact books
  | finish call =>
      obtain ⟨busy, taken⟩ := Option.ite_none_right_eq_some.mp taken
      obtain rfl := Option.some.inj taken
      have same : ((before.finished ++ [call]).map FinishedCall.call ++
          before.pending.erase call.call).Perm
            (before.finished.map FinishedCall.call ++ before.pending) := by
        rw [List.map_append, List.append_assoc]
        exact (List.perm_cons_erase busy).symm.append_left _
      exact
        { taken := ⟨calls, by simp [finished], prms,
            going.mono rfl id fun _ alone => absurd busy (by simp [alone])⟩
          nodup := same.nodup_iff.mpr books.nodup
          below := fun other member => books.below other (same.mem_iff.mp member) }
  | stop =>
      obtain rfl := Option.some.inj taken
      exact ⟨⟨calls, finished, prms, going.mono rfl (fun _ => rfl) fun _ alone => ⟨alone, rfl⟩⟩,
        books.nodup, books.below⟩

theorem books_of_run {started : Bool}
    (execution : Execution.run kind.step events (AsyncClient.fresh started) = some after) :
    kind.Books after :=
  Execution.invariant_of_run (fun _ _ _ books taken => books.step taken) (books_fresh started)
    execution

theorem step_finished (taken : kind.step before event = some after) :
    after.finished = before.finished ++ finishes [event] := by
  cases event with
  | next =>
      obtain ⟨-, taken⟩ := Option.ite_none_right_eq_some.mp taken
      cases queue : before.cq with
      | nil =>
          rw [queue] at taken
          obtain ⟨-, taken⟩ := Option.ite_none_right_eq_some.mp taken
          obtain rfl := Option.some.inj taken
          exact (List.append_nil _).symm
      | cons call rest =>
          rw [queue] at taken
          obtain rfl := Option.some.inj taken
          exact (List.append_nil _).symm
  | asyncRun =>
      obtain ⟨-, taken⟩ := Option.ite_none_right_eq_some.mp taken
      obtain rfl := Option.some.inj taken
      exact (List.append_nil _).symm
  | asyncCall target =>
      obtain ⟨-, taken⟩ := Option.ite_none_left_eq_some.mp taken
      obtain rfl := Option.some.inj taken
      unfold ClientKind.asyncCall
      split_ifs <;> exact (List.append_nil _).symm
  | finish call =>
      obtain ⟨-, taken⟩ := Option.ite_none_right_eq_some.mp taken
      obtain rfl := Option.some.inj taken
      rfl
  | stop =>
      obtain rfl := Option.some.inj taken
      exact (List.append_nil _).symm

/-- What is finished in the events is what the history of the client says. -/
theorem finished_of_run
    (execution : Execution.run kind.step events before = some after) :
    after.finished = before.finished ++ finishes events := by
  induction events generalizing before with
  | nil =>
      obtain rfl : before = after := Option.some.inj execution
      exact (List.append_nil _).symm
  | cons event events ih =>
      obtain ⟨middle, taken, rest⟩ := Option.bind_eq_some_iff.mp execution
      rw [ih rest, step_finished taken, List.append_assoc]
      congr 1
      exact List.filterMap_append.symm

/-! ## What is left when the loop has taken its turns -/

theorem turns_of_not_running (ended : client.runningThread ≠ .running) (count : Nat) :
    kind.turns count client = client := by
  cases count with
  | zero => rfl
  | succ count => simp [turns, ClientKind.next, ended]

/-- The turns are turns of the loop. -/
theorem exists_turns (count : Nat) (client : AsyncClient Pb R) :
    ∃ taken, Execution.run kind.step (List.replicate taken .next) client =
      some (kind.turns count client) := by
  induction count generalizing client with
  | zero => exact ⟨0, rfl⟩
  | succ count ih =>
      cases turn : kind.next client with
      | none => exact ⟨0, by simp [turns, turn, Execution.run]⟩
      | some later =>
          obtain ⟨taken, execution⟩ := ih later
          refine ⟨taken + 1, ?_⟩
          rw [List.replicate_succ, turns, turn, ← execution]
          exact Execution.run_cons turn

/-- While it runs, the loop serves the completion queue. -/
theorem drain_prms (running : client.runningThread = .running) :
    (kind.drain client).prms = client.prms ++ (served client.cq).map kind.entry := by
  obtain ⟨queue, same⟩ : ∃ queue, client.cq = queue := ⟨_, rfl⟩
  rw [drain, same]
  induction queue generalizing client with
  | nil => simp [turns, served]
  | cons call rest ih =>
      have turn : kind.next client =
          some
            { client with
              cq := rest
              prms := client.prms ++ [kind.entry call]
              runningThread := if call.status.ok then .running else .returned } := by
        rw [ClientKind.next, if_pos running, same]
        rfl
      rw [List.length_cons, turns, turn, served]
      dsimp only
      split_ifs with ok
      · rw [ih rfl rfl]
        simp
      · rw [turns_of_not_running (by simp)]
        simp

/-- The promises of the served calls are set. -/
theorem Books.drain_prms (books : kind.Books client)
    (started : client.runningThread ≠ .notStarted) :
    (kind.drain client).prms = (served client.finished).map kind.entry := by
  obtain ⟨calls, finished, prms, taken⟩ := books.taken
  rw [finished]
  cases taken with
  | going waits ok =>
      have running : client.runningThread = .running := by
        cases thread : client.runningThread with
        | notStarted => exact absurd thread started
        | running => rfl
        | returned => exact absurd thread waits
      rw [ClientKind.drain_prms running, served_append_of_ok ok, prms, List.map_append]
  | failed ended front last split ok bad =>
      have rest : served (calls ++ client.cq) = calls := by
        rw [split, List.append_assoc, served_append_of_ok ok, List.singleton_append, served,
          if_neg (by simp [bad])]
      rw [drain, turns_of_not_running (by simp [ended]), rest, prms]
  | stopped ended drained alone down ok =>
      rw [drain, turns_of_not_running (by simp [ended]), drained, List.append_nil,
        served_of_ok ok, prms]

/-- Every finished call has its outcome, once, when the loop has taken the turns it is going to
take. -/
def Resolves (kind : ClientKind Target Pb R) (client : AsyncClient Pb R) : Prop :=
  ∀ call ∈ client.finished,
    ((kind.drain client).prms.map Prod.fst).count call.call = 1 ∧
      kind.entry call ∈ (kind.drain client).prms

theorem Books.resolves_iff_served (books : kind.Books client)
    (started : client.runningThread ≠ .notStarted) :
    kind.Resolves client ↔ served client.finished = client.finished := by
  have names : ((served client.finished).map kind.entry).map Prod.fst =
      (served client.finished).map FinishedCall.call := by
    rw [List.map_map]
    rfl
  have nodup := List.Nodup.of_append_left books.nodup
  rw [Resolves, books.drain_prms started, names]
  constructor
  · intro resolves
    obtain ⟨rest, split⟩ := served_prefix client.finished
    cases rest with
    | nil => simpa using split
    | cons call rest =>
        have once := (resolves call (split ▸ by simp)).1
        have taken : call.call ∈ (served client.finished).map FinishedCall.call :=
          List.count_pos_iff.mp (by omega)
        rw [← split, List.map_append] at nodup
        exact absurd taken (List.disjoint_right.mp (List.disjoint_of_nodup_append nodup) (by simp))
  · intro same
    rw [same]
    intro call member
    exact ⟨List.count_eq_one_of_mem nodup (List.mem_map_of_mem member),
      List.mem_map_of_mem member⟩

/-- Every finished call gets its outcome exactly when none but the last one has an error. -/
theorem resolves_iff (started : Bool)
    (execution : Execution.run kind.step events (AsyncClient.fresh started) = some after)
    (serving : after.runningThread ≠ .notStarted) :
    kind.Resolves after ↔ ∀ call ∈ (finishes events).dropLast, call.status.ok = true := by
  rw [(books_of_run execution).resolves_iff_served serving, served_eq_iff,
    finished_of_run execution]
  rfl

theorem step_of_returned (ended : before.runningThread = .returned)
    (taken : kind.step before event = some after) :
    after.runningThread = .returned ∧ after.prms = before.prms := by
  cases event with
  | next => simp [step, ClientKind.next, ended] at taken
  | asyncRun => simp [step, ended] at taken
  | asyncCall target =>
      obtain ⟨-, taken⟩ := Option.ite_none_left_eq_some.mp taken
      obtain rfl := Option.some.inj taken
      unfold ClientKind.asyncCall
      split_ifs <;> exact ⟨ended, rfl⟩
  | finish call =>
      obtain ⟨-, taken⟩ := Option.ite_none_right_eq_some.mp taken
      obtain rfl := Option.some.inj taken
      exact ⟨ended, rfl⟩
  | stop =>
      obtain rfl := Option.some.inj taken
      exact ⟨ended, rfl⟩

/-- When the loop has returned, no promise is set any more: whoever waits for one waits forever. -/
theorem prms_of_returned (ended : before.runningThread = .returned)
    (execution : Execution.run kind.step events before = some after) :
    after.prms = before.prms := by
  induction events generalizing before with
  | nil => exact congrArg AsyncClient.prms (Option.some.inj execution).symm
  | cons event events ih =>
      obtain ⟨middle, taken, rest⟩ := Option.bind_eq_some_iff.mp execution
      obtain ⟨still, same⟩ := step_of_returned ended taken
      exact (ih still rest).trans same

/-- A call fails, and is tried again with success. -/
def retried : List (ClientEvent Unit PbReply) :=
  [.asyncCall (), .finish { call := 0, status := { errorCode := 14 }, reply := {} }, .next,
    .asyncCall (), .finish { call := 1, reply := { term := 1, ans := true } }]

/-- The client after the failure, when the second call has been made. -/
def failedOnce : AsyncClient PbReply Reply :=
  { runningThread := .returned
    issued := 2
    pending := [1]
    prms := [(0, .rpcError "14, ")]
    finished := [{ call := 0, status := { errorCode := 14 }, reply := {} }] }

theorem resolves_iff_failed :
    rpcClient.Resolves failedOnce ↔
      ∀ call ∈ (finishes (retried.take 4)).dropLast, call.status.ok = true :=
  resolves_iff true (by decide) (by decide)

/-- The second call has succeeded, and its promise is never set. -/
theorem resolves_counterexample :
    ∃ after, Execution.run rpcClient.step retried (AsyncClient.fresh true) = some after ∧
      after.runningThread ≠ .notStarted ∧ ¬ rpcClient.Resolves after := by
  refine ⟨_, rfl, by decide, fun resolves => ?_⟩
  have once := (resolves { call := 1, reply := { term := 1, ans := true } } (by simp)).1
  exact absurd once (by decide)

end ClientKind

end Quintet
