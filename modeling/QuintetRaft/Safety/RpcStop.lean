import QuintetRaft.Library.Mutex
import QuintetRaft.Model.RpcStop
import QuintetRaft.Safety.RpcPause

/-!
# The threads of a service that is stopped

What the mutex, the counter and the history say about the threads, in every state; that the service
is that of `RpcService` until `stop` is called; and where nothing goes on by itself.
-/

namespace Quintet

namespace ShutdownPhase

@[simp] theorem notify_hasMutex (phase : ShutdownPhase) :
    phase.notify.HasMutex ↔ phase.HasMutex := by
  cases phase <;> simp [notify, HasMutex]

@[simp] theorem notify_past (phase : ShutdownPhase) : phase.notify.Past ↔ phase.Past := by
  cases phase <;> simp [notify, Past]

@[simp] theorem notify_eq_returned {phase : ShutdownPhase} :
    phase.notify = .returned ↔ phase = .returned := by
  cases phase <;> simp [notify]

theorem notify_ne_waiting (phase : ShutdownPhase) : phase.notify ≠ .waiting := by
  cases phase <;> simp [notify]

end ShutdownPhase

namespace RpcThread

/-- An RPC is counted from `preRpc` to its deleter. -/
def InOrder (thread : RpcThread) : Prop :=
  match thread.phase with
  | .absent | .done => thread.counted = false
  | .leaving => True
  | _ => thread.counted = true

/-- The thread has not got the mutex yet, or does not need it any more. -/
def Settled (thread : RpcThread) : Prop :=
  match thread.phase with
  | .absent | .arrived | .done => True
  | .leaving => thread.counted = false
  | _ => False

/-- The thread after `notify_all`. -/
def notify (thread : RpcThread) : RpcThread := { thread with phase := thread.phase.notify }

theorem InOrder.notify {thread : RpcThread} (inOrder : thread.InOrder) : thread.notify.InOrder := by
  obtain ⟨phase, counted⟩ := thread
  cases phase <;> exact inOrder

theorem Settled.notify {thread : RpcThread} (settled : thread.Settled) : thread.notify.Settled := by
  obtain ⟨phase, counted⟩ := thread
  cases phase <;> exact settled

/-- A thread that is not counted has not come, or has left. -/
theorem InOrder.settled {thread : RpcThread} (inOrder : thread.InOrder)
    (uncounted : thread.counted = false) : thread.Settled := by
  obtain ⟨phase, counted⟩ := thread
  obtain rfl : counted = false := uncounted
  cases phase <;> trivial

end RpcThread

namespace StoppingService

variable {service before after : StoppingService} {id : ℕ} {thread later : RpcThread}
  {rpcing : Option RpcParty} {numRpcRemaining : ℕ} {phase : ShutdownPhase} {action : ServiceAction}

/-! ## What the threads share -/

/-- A party is where it needs the mutex. -/
def Holds (service : StoppingService) : RpcParty → Prop
  | .rpc id => ∃ thread ∈ service.threads[id]?, thread.phase.HasMutex
  | .stop => service.stopping.HasMutex

/-- What the mutex, the counter and the history say about the threads. -/
structure Sound (service : StoppingService) : Prop where
  /-- One party has the mutex. -/
  mutex : Mutex.Owns service.rpcing service.Holds
  /-- The counter counts. -/
  number : service.numRpcRemaining = service.threads.countP (·.counted)
  /-- Threads are counted while they use the service. -/
  counted : ∀ thread ∈ service.threads, thread.InOrder
  /-- Once none has remained, none can get the mutex. -/
  settled : service.stopping.Past → ∀ thread ∈ service.threads, thread.Settled
  /-- After `stop` everything has been answered. -/
  returned : service.stopping = .returned → ∀ thread ∈ service.threads, thread.phase = .done
  /-- The history holds the RPCs whose handlers have been called. -/
  history : ∀ id, id ∈ service.called ↔ ∃ thread ∈ service.threads[id]?, thread.phase.Called
  /-- No handler has been called twice. -/
  once : service.called.Nodup

theorem sound_init : Sound {} where
  mutex party := by cases party <;> simp [Holds, ShutdownPhase.HasMutex]
  number := rfl
  counted := by simp
  settled := by simp
  returned := by simp
  history := by simp
  once := List.nodup_nil

/-! ## One thread moves -/

/-- What a property says of the thread of a number, after one thread has moved. -/
theorem exists_move_iff {property : RpcThread → Prop} (present : service.threads[id]? = some thread)
    (other : ℕ) :
    (∃ found ∈ (service.move id later).threads[other]?, property found) ↔
      if other = id then property later
      else ∃ found ∈ service.threads[other]?, property found := by
  have inside : id < service.threads.length := (List.getElem?_eq_some_iff.mp present).1
  by_cases same : other = id
  · subst same
    simp [move, inside]
  · simp [move, same, Ne.symm same]

theorem forall_move {property : RpcThread → Prop}
    (all : ∀ thread ∈ service.threads, property thread) (moved : property later) :
    ∀ thread ∈ (service.move id later).threads, property thread := by
  intro thread member
  rcases List.mem_or_eq_of_mem_set member with old | rfl
  · exact all thread old
  · exact moved

/-- Counting after one thread has moved. -/
theorem countP_move (present : service.threads[id]? = some thread) (later : RpcThread) :
    (service.move id later).threads.countP (·.counted) + thread.counted.toNat =
      service.threads.countP (·.counted) + later.counted.toNat := by
  obtain ⟨inside, here⟩ := List.getElem?_eq_some_iff.mp present
  have split : service.threads = service.threads.take id ++ thread ::
      service.threads.drop (id + 1) := by
    rw [← here, List.getElem_cons_drop, List.take_append_drop]
  rw [move, List.set_eq_take_append_cons_drop, if_pos inside]
  conv_rhs => rw [split]
  simp only [List.countP_append, List.countP_cons]
  cases thread.counted <;> cases later.counted <;> simp <;> omega

theorem Moves.passes (moves : Moves service id thread action later rpcing numRpcRemaining) :
    Mutex.Passes (.rpc id) service.rpcing rpcing thread.phase.HasMutex later.phase.HasMutex := by
  cases moves with
  | count absent => exact .keep rfl (by simp [absent, RpcPhase.HasMutex])
  | lock ready free => exact .lock free rfl trivial
  | suspend locked paused => exact .keep rfl (by simp [locked, RpcPhase.HasMutex])
  | wait suspending => exact .unlock (by rw [suspending]; trivial) not_false rfl
  | finish handling => exact .unlock (by rw [handling]; trivial) not_false rfl
  | uncount leaving counted => exact .keep rfl Iff.rfl
  | wake waiting => exact .keep rfl (by simp [waiting, RpcPhase.HasMutex])

theorem Moves.inOrder (moves : Moves service id thread action later rpcing numRpcRemaining)
    (inOrder : thread.InOrder) : later.InOrder := by
  have counted : (match thread.phase with | .absent | .leaving | .done => False | _ => True) →
      thread.counted = true := by
    intro busy
    unfold RpcThread.InOrder at inOrder
    cases phase : thread.phase <;> simp_all
  cases moves with
  | count absent => rfl
  | lock ready free =>
      exact counted (by rcases ready with ready | ready <;> rw [ready] <;> trivial)
  | suspend locked paused => exact counted (by rw [locked]; trivial)
  | wait suspending => exact counted (by rw [suspending]; trivial)
  | finish handling => trivial
  | uncount leaving counted => rw [RpcThread.InOrder, leaving]; trivial
  | wake waiting => exact counted (by rw [waiting]; trivial)

/-- The counter changes with the thread. -/
theorem Moves.number (moves : Moves service id thread action later rpcing numRpcRemaining)
    (inOrder : thread.InOrder) (some : thread.counted = true → 0 < service.numRpcRemaining) :
    numRpcRemaining + thread.counted.toNat =
      service.numRpcRemaining + later.counted.toNat := by
  cases moves with
  | count absent =>
      have uncounted : thread.counted = false := by simpa [RpcThread.InOrder, absent] using inOrder
      simp [uncounted]
  | uncount leaving counted =>
      have positive := some counted
      simp only [counted, Bool.toNat_true, Bool.toNat_false]
      omega
  | _ => rfl

/-- A settled thread stays so, unless the mutex is free. -/
theorem Moves.settled (moves : Moves service id thread action later rpcing numRpcRemaining)
    (settled : thread.Settled) (taken : service.rpcing ≠ none) : later.Settled := by
  unfold RpcThread.Settled at settled
  cases moves with
  | count absent => trivial
  | lock ready free => exact absurd free taken
  | uncount leaving counted => simp [leaving, counted] at settled
  | suspend locked paused => simp [locked] at settled
  | wait suspending => simp [suspending] at settled
  | finish handling => simp [handling] at settled
  | wake waiting => simp [waiting] at settled

theorem Moves.called (moves : Moves service id thread action later rpcing numRpcRemaining) :
    later.phase.Called ↔ thread.phase.Called := by
  cases moves with
  | count absent => simp [absent, RpcPhase.Called]
  | lock ready free => rcases ready with ready | ready <;> simp [ready, RpcPhase.Called]
  | suspend locked paused => simp [locked, RpcPhase.Called]
  | wait suspending => simp [suspending, RpcPhase.Called]
  | finish handling => simp [handling, RpcPhase.Called]
  | uncount leaving counted => exact Iff.rfl
  | wake waiting => simp [waiting, RpcPhase.Called]

theorem Moves.not_done (moves : Moves service id thread action later rpcing numRpcRemaining) :
    thread.phase ≠ .done := by
  intro done
  cases moves <;> simp_all

/-- While `stop` shuts down, it has the mutex. -/
theorem Sound.taken (sound : service.Sound) (past : service.stopping.Past)
    (inside : service.stopping ≠ .returned) : service.rpcing = some .stop := by
  refine (sound.mutex .stop).mp ?_
  change service.stopping.HasMutex
  cases phase : service.stopping <;> simp_all [ShutdownPhase.Past, ShutdownPhase.HasMutex]

theorem Sound.moves (sound : service.Sound) (present : service.threads[id]? = some thread)
    (moves : Moves service id thread action later rpcing numRpcRemaining) :
    Sound { service.move id later with rpcing, numRpcRemaining } := by
  have member := List.mem_of_getElem? present
  have inOrder := sound.counted thread member
  have stays : service.stopping ≠ .returned := fun returned =>
    moves.not_done (sound.returned returned thread member)
  have inside : service.Holds (.rpc id) ↔ thread.phase.HasMutex := by
    simp [Holds, present]
  have insideLater : Holds { service.move id later with rpcing, numRpcRemaining } (.rpc id) ↔
      later.phase.HasMutex := by
    refine (exists_move_iff present id).trans ?_
    rw [if_pos rfl]
  refine
    { mutex := ?_
      number := ?_
      counted := forall_move sound.counted (moves.inOrder inOrder)
      settled := fun past => ?_
      returned := fun returned => absurd returned stays
      history := fun other => ?_
      once := sound.once }
  · refine Mutex.Owns.passes sound.mutex (?_ : Mutex.Passes (RpcParty.rpc id) _ _ _ _)
      fun party apart => ?_
    · rw [inside, insideLater]
      exact moves.passes
    · cases party with
      | stop => exact Iff.rfl
      | rpc other =>
          refine (exists_move_iff present other).trans ?_
          rw [if_neg fun same => apart (congrArg RpcParty.rpc same)]
          exact Iff.rfl
  · have positive : thread.counted = true → 0 < service.numRpcRemaining := fun counted => by
      rw [sound.number]
      exact List.countP_pos_iff.mpr ⟨thread, member, counted⟩
    have changed := moves.number inOrder positive
    have counts := countP_move present later
    have before := sound.number
    dsimp only
    omega
  · have free : service.rpcing ≠ none := by simp [sound.taken past stays]
    exact forall_move (sound.settled past) (moves.settled (sound.settled past thread member) free)
  · refine (sound.history other).trans ((exists_move_iff present other).trans ?_).symm
    by_cases same : other = id
    · subst same
      simp [present, moves.called]
    · rw [if_neg same]

/-- A handler is called. -/
theorem Sound.call (sound : service.Sound) (present : service.threads[id]? = some thread)
    (locked : thread.phase = .locked) :
    Sound { service.move id { thread with phase := .handling } with
      called := service.called ++ [id] } := by
  have member := List.mem_of_getElem? present
  have counted : thread.counted = true := by
    simpa [RpcThread.InOrder, locked] using sound.counted thread member
  have unsettled : ¬ thread.Settled := by simp [RpcThread.Settled, locked]
  have uncalled : id ∉ service.called := by simp [sound.history, present, locked, RpcPhase.Called]
  refine
    { mutex := fun party => ?_
      number := ?_
      counted := forall_move sound.counted counted
      settled := fun past => absurd (sound.settled past thread member) unsettled
      returned := fun returned => ?_
      history := fun other => ?_
      once := ?_ }
  · cases party with
    | stop => exact sound.mutex .stop
    | rpc other =>
        refine (exists_move_iff present other).trans (Iff.trans ?_ (sound.mutex (.rpc other)))
        by_cases same : other = id
        · subst same
          simp [Holds, present, locked, RpcPhase.HasMutex]
        · rw [if_neg same]
          exact Iff.rfl
  · have counts := countP_move present { thread with phase := .handling }
    have before := sound.number
    dsimp only [move] at counts ⊢
    omega
  · have done := sound.returned returned thread member
    simp [locked] at done
  · rw [List.mem_append, List.mem_singleton, sound.history]
    refine Iff.symm ((exists_move_iff present other).trans ?_)
    by_cases same : other = id
    · subst same
      simp [RpcPhase.Called]
    · simp [same]
  · exact List.nodup_append.mpr ⟨sound.once, List.nodup_singleton id,
      fun other called self mine same => uncalled (List.mem_singleton.mp mine ▸ same ▸ called)⟩

/-- What a property says of the phase of a thread, after all have been notified. -/
theorem exists_notify_iff (property : RpcPhase → Prop) (other : ℕ) :
    (∃ found ∈ service.notifyAll.threads[other]?, property found.phase) ↔
      ∃ found ∈ service.threads[other]?, property found.phase.notify := by
  simp only [notifyAll, List.getElem?_map, Option.mem_def, Option.map_eq_some_iff]
  exact ⟨fun ⟨_, ⟨found, present, rfl⟩, holds⟩ => ⟨found, present, holds⟩,
    fun ⟨found, present, holds⟩ => ⟨_, ⟨found, present, rfl⟩, holds⟩⟩

theorem Sound.notifyAll (sound : service.Sound) : service.notifyAll.Sound where
  mutex party := by
    cases party with
    | stop => exact (ShutdownPhase.notify_hasMutex _).trans (sound.mutex .stop)
    | rpc other =>
        refine (exists_notify_iff _ other).trans (Iff.trans ?_ (sound.mutex (.rpc other)))
        simp only [RpcPhase.notify_hasMutex]
        exact Iff.rfl
  number := by
    rw [StoppingService.notifyAll, List.countP_map]
    exact sound.number
  counted := List.forall_mem_map.mpr fun thread member => (sound.counted thread member).notify
  settled past := List.forall_mem_map.mpr fun thread member =>
    (sound.settled ((ShutdownPhase.notify_past _).mp past) thread member).notify
  returned returned := List.forall_mem_map.mpr fun thread member => by
    have done := sound.returned (ShutdownPhase.notify_eq_returned.mp returned) thread member
    rw [done]
    rfl
  history other := by
    refine (sound.history other).trans (Iff.symm ((exists_notify_iff _ other).trans ?_))
    simp only [RpcPhase.notify_called]
  once := sound.once

/-- An RPC has been answered. -/
theorem Sound.leave (sound : service.Sound) (present : service.threads[id]? = some thread)
    (leaving : thread.phase = .leaving) (uncounted : thread.counted = false) :
    (service.move id { thread with phase := .done }).notifyAll.Sound := by
  have member := List.mem_of_getElem? present
  have moved : Sound (service.move id { thread with phase := .done }) := by
    refine
      { mutex := fun party => ?_
        number := ?_
        counted := forall_move sound.counted uncounted
        settled := fun past => forall_move (sound.settled past) trivial
        returned := fun returned => forall_move (sound.returned returned) rfl
        history := fun other => ?_
        once := sound.once }
    · cases party with
      | stop => exact sound.mutex .stop
      | rpc other =>
          refine (exists_move_iff present other).trans (Iff.trans ?_ (sound.mutex (.rpc other)))
          by_cases same : other = id
          · subst same
            simp [Holds, present, leaving, RpcPhase.HasMutex]
          · rw [if_neg same]
            exact Iff.rfl
    · have counts := countP_move present { thread with phase := .done }
      have before := sound.number
      dsimp only [move] at counts ⊢
      omega
    · refine (sound.history other).trans ((exists_move_iff present other).trans ?_).symm
      by_cases same : other = id
      · subst same
        simp [present, leaving, RpcPhase.Called]
      · rw [if_neg same]
  exact moved.notifyAll

/-- `stop` goes on. -/
theorem Sound.halts (sound : service.Sound) (halts : Halts service action phase rpcing) :
    Sound { service with stopping := phase, rpcing } := by
  have passes : Mutex.Passes RpcParty.stop service.rpcing rpcing service.stopping.HasMutex
      phase.HasMutex := by
    cases halts with
    | lock ready free => exact .lock free rfl trivial
    | pass checking none => exact .keep rfl (by simp [checking, ShutdownPhase.HasMutex])
    | suspend checking some => exact .keep rfl (by simp [checking, ShutdownPhase.HasMutex])
    | wait suspending => exact .unlock (by rw [suspending]; trivial) not_false rfl
    | wake waiting => exact .keep rfl (by simp [waiting, ShutdownPhase.HasMutex])
    | close closing => exact .keep rfl (by simp [closing, ShutdownPhase.HasMutex])
    | finish shutting all => exact .unlock (by rw [shutting]; trivial) not_false rfl
  refine
    { sound with
      mutex := Mutex.Owns.passes sound.mutex passes fun party apart => ?_
      settled := fun past => ?_
      returned := fun returned => ?_ }
  · cases party with
    | stop => exact absurd rfl apart
    | rpc other => exact Iff.rfl
  · cases halts with
    | pass checking none =>
        intro thread member
        refine (sound.counted thread member).settled ?_
        have nobody : service.threads.countP (·.counted) = 0 := sound.number.symm.trans none
        simpa using List.countP_eq_zero.mp nobody thread member
    | close closing => exact sound.settled (by rw [closing]; trivial)
    | finish shutting all => exact sound.settled (by rw [shutting]; trivial)
    | _ => exact past.elim
  · cases halts with
    | finish shutting all => exact all
    | _ => cases returned

theorem Sound.accept (sound : service.Sound) (accepts : service.stopping.Accepts) :
    Sound { service with threads := service.threads ++ [{}] } := by
  have fresh : ∀ (property : RpcPhase → Prop), ¬ property .absent → ∀ other : ℕ,
      (∃ found ∈ (service.threads ++ [({} : RpcThread)])[other]?, property found.phase) ↔
        ∃ found ∈ service.threads[other]?, property found.phase := by
    intro property never other
    rw [List.getElem?_append]
    split_ifs with inside
    · exact Iff.rfl
    · rw [List.getElem?_eq_none (Nat.le_of_not_lt inside)]
      simp only [Option.mem_def, List.getElem?_singleton]
      split_ifs <;> simp [never]
  refine
    { mutex := fun party => ?_
      number := ?_
      counted := ?_
      settled := fun past => ?_
      returned := fun returned => ?_
      history := fun other => ?_
      once := sound.once }
  · cases party with
    | stop => exact sound.mutex .stop
    | rpc other => exact (fresh _ not_false other).trans (sound.mutex (.rpc other))
  · rw [List.countP_append]
    exact sound.number
  · exact List.forall_mem_append.mpr ⟨sound.counted, by simp [RpcThread.InOrder]⟩
  · exact List.forall_mem_append.mpr ⟨sound.settled past, by simp [RpcThread.Settled]⟩
  · rw [show service.stopping = .returned from returned] at accepts
    exact accepts.elim
  · exact (sound.history other).trans (fresh _ not_false other).symm

/-- Every step keeps what the threads share in order. -/
theorem Sound.step (sound : before.Sound) (taken : before.step action = some after) :
    after.Sound := by
  cases step_cases taken with
  | accept accepts => exact sound.accept accepts
  | moves present moves => exact sound.moves present moves
  | call present locked clear => exact sound.call present locked
  | leave present leaving uncounted => exact sound.leave present leaving uncounted
  | pause outside => exact { sound with }
  | clear changing => exact { sound with }
  | notify notifying =>
      have still : Sound { before with transforming := .outside } := { sound with }
      exact still.notifyAll
  | stop outside =>
      refine { sound with mutex := fun party => ?_, settled := nofun, returned := nofun }
      cases party with
      | rpc other => exact sound.mutex (.rpc other)
      | stop =>
          refine Iff.trans ?_ (sound.mutex .stop)
          simp [Holds, outside, ShutdownPhase.HasMutex]
  | stopNotify notifying =>
      have locking : Sound { before with stopping := .locking } := by
        refine { sound with mutex := fun party => ?_, settled := nofun, returned := nofun }
        cases party with
        | rpc other => exact sound.mutex (.rpc other)
        | stop =>
            refine Iff.trans ?_ (sound.mutex .stop)
            simp [Holds, notifying, ShutdownPhase.HasMutex]
      exact locking.notifyAll
  | halts halts => exact sound.halts halts

/-! ## Before `stop` -/

/-- The service without the counter and without `stop`. -/
def forget (service : StoppingService) : RpcService ℕ where
  paused := service.paused
  rpcing := service.rpcing.bind fun
    | .rpc id => some id
    | .stop => none
  rpcs id := (service.threads[id]?.map RpcThread.phase).getD .absent
  transforming := service.transforming
  called := service.called

theorem forget_rpcs (present : service.threads[id]? = some thread) :
    service.forget.rpcs id = thread.phase := by
  simp [forget, present]

theorem forget_move (present : service.threads[id]? = some thread) (later : RpcThread) :
    (service.move id later).forget = service.forget.move id later.phase := by
  have inside : id < service.threads.length := (List.getElem?_eq_some_iff.mp present).1
  have same : (service.move id later).forget.rpcs =
      Function.update service.forget.rpcs id later.phase := by
    funext other
    by_cases here : other = id
    · subst here
      simp [forget, move, inside]
    · simp [forget, move, here, Ne.symm here]
  exact congrArg (fun rpcs => { service.forget with rpcs }) same

theorem forget_notifyAll : service.notifyAll.forget = service.forget.notifyAll := by
  have same : service.notifyAll.forget.rpcs = service.forget.notifyAll.rpcs := by
    funext other
    cases present : service.threads[other]? <;>
      simp [forget, notifyAll, RpcService.notifyAll, present, RpcPhase.notify]
  exact congrArg (fun rpcs => { service.forget with rpcs }) same

theorem forget_append : forget { service with threads := service.threads ++ [{}] } =
    service.forget := by
  have same : (forget { service with threads := service.threads ++ [{}] }).rpcs =
      service.forget.rpcs := by
    funext other
    simp only [forget, List.getElem?_append]
    split_ifs with inside
    · rfl
    · rw [List.getElem?_eq_none (Nat.le_of_not_lt inside), List.getElem?_singleton]
      split_ifs <;> rfl
  exact congrArg (fun rpcs => { service.forget with rpcs }) same

/-- Away from the counter the moves of an RPC are those of the service. -/
theorem forget_moves (present : service.threads[id]? = some thread)
    (moves : Moves service id thread action later rpcing numRpcRemaining) :
    forget { service.move id later with rpcing, numRpcRemaining } = service.forget ∨
      ∃ action, service.forget.step action =
        some (forget { service.move id later with rpcing, numRpcRemaining }) := by
  have phase := forget_rpcs present
  have moved : forget { service.move id later with rpcing, numRpcRemaining } =
      { service.forget.move id later.phase with
        rpcing := rpcing.bind fun
          | .rpc id => some id
          | .stop => none } :=
    congrArg (fun after : RpcService ℕ => { after with
      rpcing := rpcing.bind fun
        | .rpc id => some id
        | .stop => none }) (forget_move present later)
  rw [moved]
  cases moves with
  | count absent => exact .inr ⟨.arrive id, if_pos (phase.trans absent)⟩
  | lock ready free =>
      refine .inr ⟨.lock id, if_pos ⟨ready.imp phase.trans phase.trans, ?_⟩⟩
      simp [forget, free]
  | suspend locked paused =>
      refine .inr ⟨.readPaused id, (if_pos (phase.trans locked)).trans ?_⟩
      rw [if_pos (show service.forget.paused = true from paused)]
      rfl
  | wait suspending => exact .inr ⟨.wait id, if_pos (phase.trans suspending)⟩
  | finish handling => exact .inr ⟨.finish id, if_pos (phase.trans handling)⟩
  | uncount leaving counted =>
      left
      have same : service.forget.move id thread.phase = service.forget := by
        rw [RpcService.move, ← phase, Function.update_eq_self]
      exact congrArg (fun after : RpcService ℕ =>
        { after with rpcing := service.forget.rpcing }) same
  | wake waiting => exact .inr ⟨.wake id, if_pos (phase.trans waiting)⟩

/-- Until `stop` is called, each step is one of the service, or is not seen there. -/
theorem forget_step (outside : before.stopping = .outside)
    (taken : before.step action = some after) (other : action ≠ .stop) :
    after.stopping = .outside ∧
      (after.forget = before.forget ∨
        ∃ action, before.forget.step action = some after.forget) := by
  cases step_cases taken with
  | accept accepts => exact ⟨outside, .inl forget_append⟩
  | moves present moves => exact ⟨outside, forget_moves present moves⟩
  | @call id thread present locked clear =>
      refine ⟨outside, .inr ⟨.readPaused id, ?_⟩⟩
      refine (if_pos ((forget_rpcs present).trans locked)).trans ?_
      rw [if_neg (show ¬ before.forget.paused = true by simp [forget, clear])]
      exact congrArg (fun after : RpcService ℕ =>
        some { after with called := before.called ++ [id] })
          (forget_move present { thread with phase := .handling }).symm
  | @leave id thread present leaving uncounted =>
      refine ⟨by simp [notifyAll, move, outside, ShutdownPhase.notify], .inr ⟨.leave id, ?_⟩⟩
      refine (if_pos ((forget_rpcs present).trans leaving)).trans ?_
      rw [forget_notifyAll, forget_move present]
  | pause away => exact ⟨outside, .inr ⟨.pause, if_pos away⟩⟩
  | clear changing => exact ⟨outside, .inr ⟨.clear, if_pos changing⟩⟩
  | notify notifying =>
      refine ⟨by simp [notifyAll, outside, ShutdownPhase.notify], .inr ⟨.notify, ?_⟩⟩
      rw [forget_notifyAll]
      exact if_pos notifying
  | stop away => exact absurd rfl other
  | stopNotify notifying => simp [outside] at notifying
  | halts halts => cases halts <;> simp_all

/-- Until `stop` is called, a run is one of the service. -/
theorem exists_run_forget {actions : List ServiceAction} (outside : before.stopping = .outside)
    (execution : Execution.run step actions before = some after) (other : .stop ∉ actions) :
    ∃ actions, Execution.run RpcService.step actions before.forget = some after.forget := by
  induction actions generalizing before with
  | nil =>
      obtain rfl := Option.some.inj execution
      exact ⟨[], rfl⟩
  | cons action actions ih =>
      obtain ⟨middle, taken, later⟩ := Option.bind_eq_some_iff.mp execution
      obtain ⟨first, rest⟩ := not_or.mp (mt List.mem_cons.mpr other)
      obtain ⟨still, moved⟩ := forget_step outside taken (Ne.symm first)
      obtain ⟨actions', follows⟩ := ih still later rest
      rcases moved with same | ⟨action', taken'⟩
      · exact ⟨actions', same ▸ follows⟩
      · exact ⟨action' :: actions', (Execution.run_cons taken').trans follows⟩

/-! ## Where nothing goes on -/

/-- Nobody goes on by himself, and `stop` waits. -/
structure Asleep (service : StoppingService) : Prop where
  /-- The identity does not change. -/
  outside : service.transforming = .outside
  /-- `stop` waits on the condition variable. -/
  sleeps : service.stopping = .waiting
  /-- The RPCs wait there too, or have been answered. -/
  resting : ∀ thread ∈ service.threads, thread.phase = .waiting ∨ thread.phase = .done

/-- `stop` keeps the mutex from an RPC without whose answer it does not end. -/
structure Blocked (service : StoppingService) : Prop where
  /-- It has found no RPC remaining, and has not returned. -/
  past : service.stopping = .closing ∨ service.stopping = .shutting
  /-- An RPC has still to take the mutex. -/
  late : ∃ thread ∈ service.threads, thread.phase = .absent ∨ thread.phase = .arrived

/-- A thread that cannot go on waits, or has answered, or is kept from the mutex. -/
theorem AtRest.rpc (atRest : service.AtRest) (present : thread ∈ service.threads) :
    thread.phase = .waiting ∨ thread.phase = .done ∨
      (thread.phase = .arrived ∨ thread.phase = .woken) ∧ service.rpcing ≠ none := by
  obtain ⟨id, here⟩ := List.mem_iff_getElem?.mp present
  have stays : service.goRpc id thread = none := by
    have stuck := atRest.1 id
    simpa only [step, here, Option.bind_eq_bind, Option.bind_some] using stuck
  unfold goRpc at stays
  cases phase : thread.phase <;> simp_all <;> split_ifs at stays

/-- `stop` cannot go on when it has not been called, waits, has returned, is kept from the mutex,
or waits for an answer in `Shutdown`. -/
theorem AtRest.stop (atRest : service.AtRest) :
    service.stopping = .outside ∨ service.stopping = .waiting ∨ service.stopping = .returned ∨
      (service.stopping = .locking ∨ service.stopping = .woken) ∧ service.rpcing ≠ none ∨
      service.stopping = .shutting ∧ ∃ thread ∈ service.threads, thread.phase ≠ .done := by
  have stays : service.goStop = none := atRest.2.2
  unfold goStop at stays
  cases phase : service.stopping <;> simp_all

theorem AtRest.outside (atRest : service.AtRest) : service.transforming = .outside := by
  have stays := atRest.2.1
  cases phase : service.transforming <;> simp_all [step]

/-- Nobody who could go on has the mutex; only `Shutdown` is called with it. -/
theorem Sound.atRest_mutex (sound : service.Sound) (atRest : service.AtRest) :
    service.rpcing = none ∨ service.stopping = .shutting := by
  by_contra taken
  obtain ⟨taken, busy⟩ := not_or.mp taken
  obtain ⟨party, owner⟩ := Option.ne_none_iff_exists'.mp taken
  have holds := (sound.mutex party).mpr owner
  cases party with
  | rpc id =>
      obtain ⟨thread, present, has⟩ := holds
      have rests := atRest.rpc (List.mem_of_getElem? present)
      cases phase : thread.phase <;> simp_all [RpcPhase.HasMutex]
  | stop =>
      have rests := atRest.stop
      change service.stopping.HasMutex at holds
      cases phase : service.stopping <;> simp_all [ShutdownPhase.HasMutex]

/-- When nothing goes on by itself after `stop` has been called, it has returned, or sleeps, or
blocks an RPC. -/
theorem Sound.atRest_cases (sound : service.Sound) (atRest : service.AtRest)
    (called : service.stopping ≠ .outside) :
    service.stopping = .returned ∨ service.Asleep ∨ service.Blocked := by
  rcases sound.atRest_mutex atRest with free | shutting
  · rcases atRest.stop with outside | waiting | returned | ⟨-, taken⟩ | ⟨shutting, -⟩
    · exact absurd outside called
    · refine .inr (.inl ⟨atRest.outside, waiting, fun thread member => ?_⟩)
      rcases atRest.rpc member with waits | done | ⟨-, taken⟩
      · exact .inl waits
      · exact .inr done
      · exact absurd free taken
    · exact .inl returned
    · exact absurd free taken
    · have owner := sound.taken (by rw [shutting]; trivial) (by simp [shutting])
      simp [free] at owner
  · rcases atRest.stop with outside | waiting | returned | ⟨ready, -⟩ | ⟨-, thread, member, busy⟩
    · exact absurd outside called
    · simp [shutting] at waiting
    · exact .inl returned
    · simp [shutting] at ready
    · refine .inr (.inr ⟨.inr shutting, thread, member, ?_⟩)
      have settled := sound.settled (by rw [shutting]; trivial) thread member
      have rests := atRest.rpc member
      unfold RpcThread.Settled at settled
      cases phase : thread.phase <;> simp_all

/-- A sleeping `stop` does not go on by itself. -/
theorem Asleep.atRest (asleep : service.Asleep) : service.AtRest := by
  refine ⟨fun id => ?_, ?_, ?_⟩
  · cases present : service.threads[id]? with
    | none => simp [step, present]
    | some thread =>
        have rests := asleep.resting thread (List.mem_of_getElem? present)
        rcases rests with waits | done
        · simp [step, present, goRpc, waits]
        · simp [step, present, goRpc, done]
  · simp [step, asleep.outside]
  · simp [step, goStop, asleep.sleeps]

end StoppingService

end Quintet
