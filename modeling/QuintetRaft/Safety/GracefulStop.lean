import QuintetRaft.Safety.RpcStop

/-!
# Stopping and the last RPCs

When `stop` returns, every RPC that was accepted has been answered.  It may not return: an RPC that
is accepted but not yet counted when the counter is read waits for the mutex that `stop` keeps, and
`stop` may go to sleep after the last notification.
-/

namespace Quintet

namespace StoppingService

variable {service before after : StoppingService} {id : ℕ} {thread later : RpcThread}
  {rpcing : Option RpcParty} {numRpcRemaining : ℕ} {action : ServiceAction}

/-! ## A graceful stop -/

/-- Once `stop` has found no RPC remaining, the handlers of all RPCs have been called; and when
nothing goes on by itself after it has been called, it has returned. -/
structure Graceful (service : StoppingService) : Prop where
  /-- No RPC has been overlooked. -/
  handled : service.stopping.Past → ∀ id < service.threads.length, id ∈ service.called
  /-- `stop` comes to its end. -/
  returns : service.AtRest → service.stopping ≠ .outside → service.stopping = .returned

/-- A settled thread has called its handler, or is to take the mutex. -/
theorem settled_cases (settled : thread.Settled) :
    thread.phase.Called ∨ thread.phase = .absent ∨ thread.phase = .arrived := by
  unfold RpcThread.Settled at settled
  cases phase : thread.phase <;> simp_all [RpcPhase.Called]

theorem Sound.graceful_iff (sound : service.Sound) :
    service.Graceful ↔ ¬ service.Asleep ∧ ¬ service.Blocked := by
  constructor
  · rintro ⟨handled, returns⟩
    refine ⟨fun asleep => ?_, fun ⟨past, thread, member, late⟩ => ?_⟩
    · have returned := returns asleep.atRest (by simp [asleep.sleeps])
      simp [asleep.sleeps] at returned
    · obtain ⟨id, present⟩ := List.mem_iff_getElem?.mp member
      have inside : id < service.threads.length := (List.getElem?_eq_some_iff.mp present).1
      have gone : service.stopping.Past := by rcases past with past | past <;> rw [past] <;> trivial
      have called := (sound.history id).mp (handled gone id inside)
      rcases late with late | late <;> simp [present, late, RpcPhase.Called] at called
  · rintro ⟨awake, free⟩
    refine ⟨fun past id inside => ?_, fun atRest called => ?_⟩
    · have present : service.threads[id]? = some service.threads[id] :=
        List.getElem?_eq_getElem inside
      have member := List.getElem_mem inside
      refine (sound.history id).mpr ⟨_, present, ?_⟩
      by_cases returned : service.stopping = .returned
      · rw [sound.returned returned _ member]
        trivial
      · refine (settled_cases (sound.settled past _ member)).resolve_right fun late => free ?_
        refine ⟨?_, _, member, late⟩
        cases phase : service.stopping <;> simp_all [ShutdownPhase.Past]
    · exact (sound.atRest_cases atRest called).resolve_right fun stuck =>
        stuck.elim awake free

/-! ## How a stop goes wrong -/

/-- An RPC waits, or has been answered. -/
def Resting (thread : RpcThread) : Prop := thread.phase = .waiting ∨ thread.phase = .done

/-- `stop` goes to sleep, or an RPC does while `stop` sleeps, and no notification is on its way. -/
def FallsAsleep (before : StoppingService) (action : ServiceAction) : Prop :=
  before.transforming = .outside ∧
    (action = .goOn ∧ before.stopping = .suspending ∧
        (∀ thread ∈ before.threads, Resting thread) ∨
      before.stopping = .waiting ∧ ∃ id, action = .rpc id ∧
        (∃ thread ∈ before.threads[id]?, thread.phase = .suspending) ∧
        ∀ other, other ≠ id → ∀ thread ∈ before.threads[other]?, Resting thread)

/-- `stop` finds no RPC remaining while one has been accepted that is not yet counted, or one is
accepted before `stop` shuts the server down. -/
def Overlooks (before : StoppingService) (action : ServiceAction) : Prop :=
  action = .goOn ∧ before.stopping = .checking ∧ before.numRpcRemaining = 0 ∧
      (∃ thread ∈ before.threads, thread.phase = .absent) ∨
    action = .accept ∧ before.stopping = .closing

theorem not_asleep_notifyAll : ¬ service.notifyAll.Asleep := fun asleep =>
  ShutdownPhase.notify_ne_waiting _ asleep.sleeps

/-- Only waiting lets an RPC rest. -/
theorem Moves.resting (moves : Moves service id thread action later rpcing numRpcRemaining)
    (rests : Resting later) :
    action = .rpc id ∧ thread.phase = .suspending ∧ later.phase = .waiting := by
  cases moves with
  | wait suspending => exact ⟨rfl, suspending, rfl⟩
  | uncount leaving counted => simp [Resting, leaving] at rests
  | _ => simp [Resting] at rests

/-- Everything rests after one thread has moved, exactly if it rests and all others did. -/
theorem forall_resting_move (present : service.threads[id]? = some thread) :
    (∀ found ∈ (service.move id later).threads, Resting found) ↔
      Resting later ∧ ∀ other, other ≠ id → ∀ found ∈ service.threads[other]?, Resting found := by
  have inside : id < service.threads.length := (List.getElem?_eq_some_iff.mp present).1
  constructor
  · refine fun all => ⟨all later (List.mem_iff_getElem?.mpr ⟨id, by simp [move, inside]⟩),
      fun other apart found here => all found (List.mem_iff_getElem?.mpr ⟨other, ?_⟩)⟩
    rw [move, List.getElem?_set_ne (Ne.symm apart)]
    exact here
  · rintro ⟨rests, others⟩ found member
    obtain ⟨other, here⟩ := List.mem_iff_getElem?.mp member
    rw [move, List.getElem?_set] at here
    split_ifs at here with same
    · exact Option.some.inj here ▸ rests
    · exact others other (Ne.symm same) found here

theorem asleep_step_iff (taken : before.step action = some after) :
    after.Asleep ↔ FallsAsleep before action := by
  cases step_cases taken with
  | accept accepts =>
      refine iff_of_false (fun asleep => ?_) (by simp [FallsAsleep])
      have rests := asleep.resting {} (by simp)
      simp at rests
  | @moves id thread later rpcing numRpcRemaining action present moves =>
      constructor
      · rintro ⟨outside, sleeps, resting⟩
        obtain ⟨rests, others⟩ := (forall_resting_move present).mp resting
        obtain ⟨rfl, suspending, -⟩ := moves.resting rests
        exact ⟨outside, .inr ⟨sleeps, id, rfl, ⟨thread, present, suspending⟩, others⟩⟩
      · rintro ⟨outside, ⟨rfl, -⟩ | ⟨sleeps, same, rfl, ⟨found, here, suspending⟩, others⟩⟩
        · cases moves
        · refine ⟨outside, sleeps, (forall_resting_move present).mpr ?_⟩
          obtain rfl : id = same := by cases moves <;> rfl
          obtain rfl : thread = found := Option.some.inj (present.symm.trans here)
          refine ⟨?_, others⟩
          cases moves with
          | wait => exact .inl rfl
          | lock ready free => simp [suspending] at ready
          | _ => simp_all
  | @call id thread present locked clear =>
      refine iff_of_false (fun asleep => ?_) ?_
      · have rests := ((forall_resting_move present).mp asleep.resting).1
        simp [Resting] at rests
      · rintro ⟨-, ⟨other, -⟩ | ⟨-, same, other, ⟨found, here, suspending⟩, -⟩⟩
        · cases other
        · obtain rfl := ServiceAction.rpc.inj other
          obtain rfl : thread = found := Option.some.inj (present.symm.trans here)
          simp [locked] at suspending
  | @leave id thread present leaving uncounted =>
      refine iff_of_false not_asleep_notifyAll ?_
      rintro ⟨-, ⟨other, -⟩ | ⟨-, same, other, ⟨found, here, suspending⟩, -⟩⟩
      · cases other
      · obtain rfl := ServiceAction.rpc.inj other
        obtain rfl : thread = found := Option.some.inj (present.symm.trans here)
        simp [leaving] at suspending
  | pause outside =>
      exact iff_of_false (fun asleep => by cases asleep.outside) (by simp [FallsAsleep])
  | clear changing =>
      exact iff_of_false (fun asleep => by cases asleep.outside) (by simp [FallsAsleep])
  | notify notifying => exact iff_of_false not_asleep_notifyAll (by simp [FallsAsleep])
  | stop outside =>
      exact iff_of_false (fun asleep => by cases asleep.sleeps) (by simp [FallsAsleep])
  | stopNotify notifying =>
      exact iff_of_false not_asleep_notifyAll (by simp [FallsAsleep, notifying])
  | halts halts =>
      cases halts with
      | wait suspending =>
          constructor
          · rintro ⟨outside, -, resting⟩
            exact ⟨outside, .inl ⟨rfl, suspending, resting⟩⟩
          · rintro ⟨outside, ⟨-, -, resting⟩ | ⟨-, _, other, -⟩⟩
            · exact ⟨outside, rfl, resting⟩
            · cases other
      | lock ready free =>
          refine iff_of_false (fun asleep => by cases asleep.sleeps) ?_
          rcases ready with ready | ready <;> simp [FallsAsleep, ready]
      | _ =>
          exact iff_of_false (fun asleep => by cases asleep.sleeps) (by simp_all [FallsAsleep])

theorem blocked_iff : service.Blocked ↔
    (service.stopping = .closing ∨ service.stopping = .shutting) ∧
      ∃ id : ℕ, ∃ thread ∈ service.threads[id]?,
        thread.phase = .absent ∨ thread.phase = .arrived := by
  refine ⟨fun ⟨past, thread, member, late⟩ => ⟨past, ?_⟩,
    fun ⟨past, id, thread, present, late⟩ => ⟨past, thread, List.mem_of_getElem? present, late⟩⟩
  obtain ⟨id, present⟩ := List.mem_iff_getElem?.mp member
  exact ⟨id, thread, present, late⟩

/-- Notifying neither lets an RPC pass nor stops it. -/
theorem blocked_notifyAll : service.notifyAll.Blocked ↔ service.Blocked := by
  have phases : ∀ phase : RpcPhase, phase.notify = .absent ∨ phase.notify = .arrived ↔
      phase = .absent ∨ phase = .arrived := by
    intro phase
    cases phase <;> simp [RpcPhase.notify]
  have stops : service.notifyAll.stopping = .closing ∨ service.notifyAll.stopping = .shutting ↔
      service.stopping = .closing ∨ service.stopping = .shutting := by
    rw [notifyAll]
    cases service.stopping <;> simp [ShutdownPhase.notify]
  rw [blocked_iff, blocked_iff, stops]
  refine and_congr_right fun _ => exists_congr fun other => ?_
  refine (exists_notify_iff (fun phase => phase = .absent ∨ phase = .arrived) other).trans ?_
  simp only [phases]

/-- A step makes no other RPC late than the one it counts. -/
theorem Moves.late (moves : Moves service id thread action later rpcing numRpcRemaining)
    (late : later.phase = .absent ∨ later.phase = .arrived) : thread.phase = .absent := by
  cases moves with
  | count absent => exact absent
  | uncount leaving counted => simp [leaving] at late
  | _ => simp at late

/-- A thread that moves after `stop` has passed the check is not blocked any more. -/
theorem not_blocked_move (free : ¬ service.Blocked)
    (present : service.threads[id]? = some thread)
    (late : later.phase = .absent ∨ later.phase = .arrived → thread.phase = .absent) :
    ¬ (service.move id later).Blocked := by
  rintro ⟨past, found, member, waits⟩
  rcases List.mem_or_eq_of_mem_set member with old | rfl
  · exact free ⟨past, found, old, waits⟩
  · exact free ⟨past, thread, List.mem_of_getElem? present, .inl (late waits)⟩

/-- Only the check of the counter leaves an RPC behind, and `accept` after it. -/
theorem blocked_step_iff (sound : before.Sound) (free : ¬ before.Blocked)
    (taken : before.step action = some after) : after.Blocked ↔ Overlooks before action := by
  cases step_cases taken with
  | accept accepts =>
      constructor
      · rintro ⟨closing | shutting, -⟩
        · exact .inr ⟨rfl, closing⟩
        · rw [show before.stopping = .shutting from shutting] at accepts
          exact accepts.elim
      · rintro (⟨other, -⟩ | ⟨-, closing⟩)
        · cases other
        · exact ⟨.inl closing, {}, by simp, .inl rfl⟩
  | @moves id thread later rpcing numRpcRemaining action present moves =>
      refine iff_of_false (fun blocked => ?_) ?_
      · exact not_blocked_move free present moves.late ⟨blocked.past, blocked.late⟩
      · cases moves <;> simp [Overlooks]
  | @call id thread present locked clear =>
      refine iff_of_false (fun blocked => ?_) (by simp [Overlooks])
      have moved : ¬ (before.move id { thread with phase := .handling }).Blocked :=
        not_blocked_move free present (by simp)
      exact moved ⟨blocked.past, blocked.late⟩
  | leave present leaving uncounted =>
      refine iff_of_false (fun blocked => ?_) (by simp [Overlooks])
      exact not_blocked_move free present (by simp) (blocked_notifyAll.mp blocked)
  | pause outside =>
      exact iff_of_false (fun blocked => free ⟨blocked.past, blocked.late⟩) (by simp [Overlooks])
  | clear changing =>
      exact iff_of_false (fun blocked => free ⟨blocked.past, blocked.late⟩) (by simp [Overlooks])
  | notify notifying =>
      refine iff_of_false (fun blocked => ?_) (by simp [Overlooks])
      have earlier := blocked_notifyAll.mp blocked
      exact free ⟨earlier.past, earlier.late⟩
  | stop outside =>
      exact iff_of_false (fun blocked => by simpa using blocked.past) (by simp [Overlooks])
  | stopNotify notifying =>
      refine iff_of_false (fun blocked => ?_) (by simp [Overlooks, notifying])
      simpa using (blocked_notifyAll.mp blocked).past
  | halts halts =>
      cases halts with
      | pass checking none =>
          have uncounted : ∀ thread ∈ before.threads, thread.counted = false := by
            have nobody : before.threads.countP (·.counted) = 0 := sound.number.symm.trans none
            simpa using List.countP_eq_zero.mp nobody
          constructor
          · rintro ⟨-, thread, member, late⟩
            refine .inl ⟨rfl, checking, none, thread, member, late.resolve_right fun arrived => ?_⟩
            have counted := sound.counted thread member
            simp [RpcThread.InOrder, arrived, uncounted thread member] at counted
          · rintro (⟨-, -, -, thread, member, absent⟩ | ⟨other, -⟩)
            · exact ⟨.inl rfl, thread, member, .inl absent⟩
            · cases other
      | close closing =>
          exact iff_of_false (fun blocked => free ⟨.inl closing, blocked.late⟩)
            (by simp [Overlooks, closing])
      | lock ready free =>
          refine iff_of_false (fun blocked => by simpa using blocked.past) ?_
          rcases ready with ready | ready <;> simp [Overlooks, ready]
      | suspend checking some =>
          exact iff_of_false (fun blocked => by simpa using blocked.past)
            (by simp [Overlooks, some])
      | _ =>
          exact iff_of_false (fun blocked => by simpa using blocked.past)
            (by simp_all [Overlooks])

/-- From the moment it is called `stop` goes on gracefully exactly if nobody falls asleep and no RPC
is overlooked. -/
theorem stopsGracefully_iff (actions : List ServiceAction) :
    Execution.Along step (fun _ _ after => after.Graceful) actions {} ↔
      Execution.Along step
        (fun before action _ => ¬ FallsAsleep before action ∧ ¬ Overlooks before action)
        actions {} := by
  refine Execution.along_congr_of_invariant
    (fun before action after (kept : before.Sound ∧ ¬ before.Blocked) taken => ?_)
    (fun before action after kept taken guard => ?_)
    ⟨sound_init, fun blocked => by simpa using blocked.past⟩
  · rw [(kept.1.step taken).graceful_iff, asleep_step_iff taken,
      blocked_step_iff kept.1 kept.2 taken]
  · exact ⟨kept.1.step taken, fun blocked =>
      guard.2 ((blocked_step_iff kept.1 kept.2 taken).mp blocked)⟩

/-! ## After the check -/

/-- Once `stop` has found no RPC remaining, no handler is called any more. -/
theorem Sound.past_step (sound : before.Sound) (past : before.stopping.Past)
    (taken : before.step action = some after) :
    after.stopping.Past ∧ after.called = before.called := by
  cases step_cases taken with
  | call present locked clear =>
      have settled := sound.settled past _ (List.mem_of_getElem? present)
      simp [RpcThread.Settled, locked] at settled
  | leave present leaving uncounted => exact ⟨(ShutdownPhase.notify_past _).mpr past, rfl⟩
  | notify notifying => exact ⟨(ShutdownPhase.notify_past _).mpr past, rfl⟩
  | stop outside => simp [outside, ShutdownPhase.Past] at past
  | stopNotify notifying => simp [notifying, ShutdownPhase.Past] at past
  | halts halts =>
      refine ⟨?_, rfl⟩
      cases halts with
      | lock ready free =>
          rcases ready with ready | ready <;> simp [ready, ShutdownPhase.Past] at past
      | suspend checking some => simp [checking, ShutdownPhase.Past] at past
      | wait suspending => simp [suspending, ShutdownPhase.Past] at past
      | wake waiting => simp [waiting, ShutdownPhase.Past] at past
      | _ => trivial
  | _ => exact ⟨past, rfl⟩

/-- The mutex stays with `stop`, and the RPC without it. -/
theorem Blocked.step (blocked : before.Blocked) (sound : before.Sound)
    (taken : before.step action = some after) : after.Blocked := by
  obtain ⟨past, late⟩ := blocked
  have gone : before.stopping.Past := by rcases past with past | past <;> rw [past] <;> trivial
  have owner : before.rpcing = some .stop :=
    sound.taken gone (by rcases past with past | past <;> simp [past])
  -- the late RPC stays late, whatever another thread does
  have moved : ∀ {id : ℕ} {thread later : RpcThread}, before.threads[id]? = some thread →
      ((thread.phase = .absent ∨ thread.phase = .arrived) →
        later.phase = .absent ∨ later.phase = .arrived) →
      (before.move id later).Blocked := by
    intro id thread later present stays
    obtain ⟨-, other, waits, here, late⟩ := blocked_iff.mp ⟨past, late⟩
    refine blocked_iff.mpr ⟨past, other, (exists_move_iff present other).mpr ?_⟩
    split_ifs with same
    · subst same
      obtain rfl : thread = waits := Option.some.inj (present.symm.trans here)
      exact stays late
    · exact ⟨waits, here, late⟩
  cases step_cases taken with
  | accept accepts =>
      obtain ⟨thread, member, waits⟩ := late
      exact ⟨past, thread, List.mem_append_left _ member, waits⟩
  | @moves id thread later rpcing numRpcRemaining action present moves =>
      have still : (before.move id later).Blocked := moved present fun late => by
        cases moves with
        | count absent => exact .inr rfl
        | lock ready free => simp [owner] at free
        | _ => simp_all
      exact ⟨still.past, still.late⟩
  | @call id thread present locked clear =>
      have still : (before.move id { thread with phase := .handling }).Blocked :=
        moved present (by simp [locked])
      exact ⟨still.past, still.late⟩
  | leave present leaving uncounted =>
      exact blocked_notifyAll.mpr (moved present (by simp [leaving]))
  | pause outside => exact ⟨past, late⟩
  | clear changing => exact ⟨past, late⟩
  | notify notifying => exact blocked_notifyAll.mpr ⟨past, late⟩
  | stop outside => rcases past with past | past <;> simp [past] at outside
  | stopNotify notifying => rcases past with past | past <;> simp [past] at notifying
  | halts halts =>
      cases halts with
      | close closing => exact ⟨.inr rfl, late⟩
      | pass checking none => exact ⟨.inl rfl, late⟩
      | lock ready free => simp [owner] at free
      | finish shutting all =>
          obtain ⟨thread, member, waits⟩ := late
          simp [all thread member] at waits
      | suspend checking some => rcases past with past | past <;> simp [past] at checking
      | wait suspending => rcases past with past | past <;> simp [past] at suspending
      | wake waiting => rcases past with past | past <;> simp [past] at waiting

/-- What can be relied upon in every state, whatever goes wrong. -/
structure Reliable (service : StoppingService) : Prop where
  /-- The counter counts the RPCs between `preRpc` and its deleter. -/
  number : service.numRpcRemaining = service.threads.countP (·.counted)
  /-- When `stop` has returned, every RPC has been answered, and its handler called once. -/
  answered : service.stopping = .returned →
    (∀ thread ∈ service.threads, thread.phase = .done) ∧ service.numRpcRemaining = 0 ∧
      service.called.Perm (List.range service.threads.length)
  /-- Once it has found no RPC remaining, no handler is called any more. -/
  silent : service.stopping.Past → ∀ actions later,
    Execution.run step actions service = some later → later.called = service.called
  /-- It comes to rest only there, or asleep, or blocking an RPC. -/
  rests : service.AtRest → service.stopping ≠ .outside →
    service.stopping = .returned ∨ service.Asleep ∨ service.Blocked
  /-- If it blocks an RPC, it never returns. -/
  blocks : service.Blocked → ∀ actions later,
    Execution.run step actions service = some later → later.Blocked

theorem Sound.called_perm (sound : service.Sound) (returned : service.stopping = .returned) :
    service.called.Perm (List.range service.threads.length) := by
  refine (List.perm_ext_iff_of_nodup sound.once List.nodup_range).mpr fun id => ?_
  rw [sound.history, List.mem_range]
  constructor
  · rintro ⟨thread, present, -⟩
    exact (List.getElem?_eq_some_iff.mp present).1
  · intro inside
    refine ⟨_, List.getElem?_eq_getElem inside, ?_⟩
    rw [sound.returned returned _ (List.getElem_mem inside)]
    trivial

theorem Sound.reliable (sound : service.Sound) : service.Reliable where
  number := sound.number
  answered returned := by
    have done := sound.returned returned
    refine ⟨done, ?_, sound.called_perm returned⟩
    rw [sound.number]
    refine List.countP_eq_zero.mpr fun thread member => ?_
    have uncounted := sound.counted thread member
    simpa [RpcThread.InOrder, done thread member] using uncounted
  silent past actions later execution := by
    refine (Execution.invariant_of_run (fun (before : StoppingService) action after
      (kept : before.Sound ∧ before.stopping.Past ∧ before.called = service.called) taken => ?_)
      ⟨sound, past, rfl⟩ execution).2.2
    obtain ⟨sound, past, same⟩ := kept
    obtain ⟨past', same'⟩ := sound.past_step past taken
    exact ⟨sound.step taken, past', same'.trans same⟩
  rests := sound.atRest_cases
  blocks blocked actions later execution := by
    exact (Execution.invariant_of_run (fun (before : StoppingService) action after
      (kept : before.Sound ∧ before.Blocked) taken =>
        ⟨kept.1.step taken, kept.2.step kept.1 taken⟩) ⟨sound, blocked⟩ execution).2

theorem reliable_of_run {actions : List ServiceAction}
    (execution : Execution.run step actions {} = some service) : service.Reliable :=
  (Execution.invariant_of_run (fun _ _ _ sound taken => sound.step taken) sound_init
    execution).reliable

/-- An RPC is answered, and `stop` returns. -/
def cleanStop : List ServiceAction :=
  [.accept] ++ List.replicate 6 (.rpc 0) ++ [.stop] ++ List.replicate 5 .goOn

/-- `stop` reads the counter before the RPC has counted itself. -/
def blockingStop : List ServiceAction :=
  [.accept, .stop] ++ List.replicate 4 .goOn ++ [.rpc 0]

/-- The RPC is answered when `stop` has read the counter and does not wait yet. -/
def sleepingStop : List ServiceAction :=
  [.accept] ++ List.replicate 4 (.rpc 0) ++ [.stop] ++ List.replicate 3 .goOn ++
    List.replicate 2 (.rpc 0) ++ [.goOn]

/-- All three ends occur. -/
theorem reliable_of_run_ends :
    (∃ final ∈ Execution.run step cleanStop ({} : StoppingService),
      final.stopping = .returned ∧ final.Reliable) ∧
    (∃ final ∈ Execution.run step blockingStop ({} : StoppingService),
      final.Blocked ∧ final.Reliable) ∧
    ∃ final ∈ Execution.run step sleepingStop ({} : StoppingService),
      final.Asleep ∧ final.AtRest ∧ final.Reliable := by
  refine ⟨?_, ?_, ?_⟩
  · have ends : ∃ final ∈ Execution.run step cleanStop ({} : StoppingService),
        final.stopping = .returned := by
      decide
    obtain ⟨final, execution, returned⟩ := ends
    exact ⟨final, execution, returned, reliable_of_run execution⟩
  · have ends : ∃ final ∈ Execution.run step blockingStop ({} : StoppingService),
        (final.stopping = .closing ∨ final.stopping = .shutting) ∧
          ∃ thread ∈ final.threads, thread.phase = .absent ∨ thread.phase = .arrived := by
      decide
    obtain ⟨final, execution, past, late⟩ := ends
    exact ⟨final, execution, ⟨past, late⟩, reliable_of_run execution⟩
  · have ends : ∃ final ∈ Execution.run step sleepingStop ({} : StoppingService),
        final.transforming = .outside ∧ final.stopping = .waiting ∧
          ∀ thread ∈ final.threads, thread.phase = .waiting ∨ thread.phase = .done := by
      decide
    obtain ⟨final, execution, outside, sleeps, resting⟩ := ends
    have asleep : final.Asleep := ⟨outside, sleeps, resting⟩
    exact ⟨final, execution, asleep, asleep.atRest, reliable_of_run execution⟩

end StoppingService

end Quintet
