import QuintetRaft.Model.ClientThreads
import QuintetRaft.Safety.Replicas
import QuintetRaft.Safety.Sections

/-!
# Clients whose threads do not race

As long as no operation of `prms` meets another one or an iterator, and the servers take steady
sections, the threads of the clients lag behind the system in which a call and the handling of an
entry are one step each.  So calls take effect at most once, and what the clients see is
linearizable.
-/

namespace Quintet

open Sections (Act)
open Linearizability (Delays Linearizes invocations)

variable {App Any : Type}

/-! ## Lagging behind -/

/-- The act is not the first one of `asyncCall` or `apply`. -/
def InterfaceAct.goesOn : InterfaceAct → Bool
  | .asyncCall .. | .apply => false
  | _ => true

/-- The promise of the thread is still to be set. -/
def ApplyThread.unset (thread : ApplyThread Any) : Bool :=
  match thread.stage with
  | .find | .finding | .setValue => true
  | .erase | .erasing => false

/-- The index of the promise that is still to be set. -/
def InterfaceProcess.pending (process : InterfaceProcess App Any) : List PrmIdx :=
  ((process.applying.filter ApplyThread.unset).map (·.entry.prmIdx)).toList

theorem InterfaceProcess.pending_of_applying {process : InterfaceProcess App Any}
    {thread : ApplyThread Any} (applies : process.applying = some thread) :
    process.pending = if thread.unset then [thread.entry.prmIdx] else [] := by
  rw [pending, applies, Option.filter_some]
  split <;> rfl

/-- When it meets none, an operation of `prms` may begin. -/
theorem InterfaceProcess.enterMap_of_undisturbed {process : InterfaceProcess App Any}
    {act : InterfaceAct} (free : process.Undisturbed act) : process.enterMap act = process := by
  have calm : (process.raced || !decide (process.Undisturbed act)) = process.raced := by
    simp [free]
  rw [enterMap, calm]

/-- The threads of an interface have begun what the system has done in one step. -/
structure LagsAt (calls : List AddLogMessage) (replicas : Replicas App Any) (id : ServerId)
    (process : InterfaceProcess App Any) : Prop where
  /-- The operations are the same. -/
  fs : (replicas.system.interfaces id).fs = process.fs
  /-- The application has the same data. -/
  app : replicas.apps id = process.app
  /-- The next promise has the same index. -/
  curPrmIdx : (replicas.system.interfaces id).curPrmIdx = process.curPrmIdx
  /-- The same entries have been handled. -/
  invoked : (replicas.system.interfaces id).invoked = process.invoked
  /-- The thread of `apply` has died of the same. -/
  failure : (replicas.system.interfaces id).failure = process.failure
  /-- A promise may still be unset. -/
  results : (replicas.system.interfaces id).results.map Prod.fst =
    process.results.map Prod.fst ++ process.pending
  /-- No operations of `prms` have met. -/
  raced : process.raced = false
  /-- The clients have made their calls. -/
  clients : ∀ client ∈ process.clients,
    client.msg ∈ replicas.system.calls ∧ client.msg.srvId = id
  /-- A call whose command is under way waits for its promise, or is done. -/
  awaited : ∃ handled, process.invoked = handled ++ (process.applying.map (·.entry)).toList ∧
    ∀ msg ∈ calls, msg.srvId = id →
      msg.prmIdx ∈ process.prms ∨ ∃ entry ∈ handled, entry.key = msg.key
  /-- The thread of `apply` has a promise of this server to set. -/
  applying : ∀ thread ∈ process.applying, thread.entry.srvId = id
  /-- Its value is the one that was given. -/
  given : ∀ thread ∈ process.applying, thread.unset = true →
    .respond thread.entry.key thread.res ∈ replicas.seen

/-- The threads of the clients have begun what the system has done in one step. -/
structure Lags (config : ClusterConfig) (system : ThreadedSystem App Any)
    (replicas : Replicas App Any) : Prop where
  /-- The servers look alike. -/
  cluster : ThreadedCluster.Shown config system.cluster replicas.system.cluster
  /-- The logs hold commands that have been sent. -/
  provenance : Provenance system.calls replicas.system.cluster
  /-- Their calls have been made. -/
  calls : system.calls ⊆ replicas.system.calls
  /-- Answers are seen later. -/
  seen : Delays system.seen replicas.seen
  /-- The interfaces lag behind. -/
  interfaces : ∀ id, LagsAt system.calls replicas id (system.interfaces id)

/-- What handling an entry of this server does when its promise is registered. -/
theorem Interface.apply_of_own {interface : Interface Any} {localId : ServerId}
    {entry : BasicLogEntry} {f : ByteString → Any} (known : interface.fs entry.opName = some f)
    (own : entry.srvId = localId)
    (registered : (interface.apply localId entry).failure ≠ some .promiseMissing) :
    entry.prmIdx ∈ interface.prms ∧ interface.apply localId entry =
      { interface with
        invoked := interface.invoked ++ [entry]
        prms := interface.prms.erase entry.prmIdx
        results := interface.results ++ [(entry.prmIdx, f entry.args)] } := by
  unfold apply setPromise at registered ⊢
  simp only [known, own, if_true] at registered ⊢
  split_ifs at registered ⊢ with waits
  · exact ⟨waits, rfl⟩
  · exact absurd rfl registered

/-- What handling an entry of another server does. -/
theorem Interface.apply_of_other {interface : Interface Any} {localId : ServerId}
    {entry : BasicLogEntry} {f : ByteString → Any} (known : interface.fs entry.opName = some f)
    (other : entry.srvId ≠ localId) : interface.apply localId entry =
      { interface with invoked := interface.invoked ++ [entry] } := by
  unfold apply setPromise
  simp only [known, other, if_false]

namespace LagsAt

variable {calls more : List AddLogMessage} {replicas later : Replicas App Any} {id : ServerId}
  {process : InterfaceProcess App Any}

theorem init (fs : ServerId → Operations App Any) (start : ServerId → App) (id : ServerId) :
    LagsAt [] { system := System.init fs, apps := start } id { fs := fs id, app := start id } where
  fs := rfl
  app := rfl
  curPrmIdx := rfl
  invoked := rfl
  failure := rfl
  results := rfl
  raced := rfl
  clients _ member := by simp at member
  awaited := ⟨[], rfl, by simp⟩
  applying _ member := by simp at member
  given _ member := by simp at member

/-- What happens elsewhere is not noticed. -/
theorem mono (lags : LagsAt calls replicas id process)
    (interface : later.system.interfaces id = replicas.system.interfaces id)
    (app : later.apps id = replicas.apps id)
    (made : replicas.system.calls ⊆ later.system.calls) (seen : replicas.seen ⊆ later.seen)
    (sent : ∀ msg ∈ more, msg ∈ calls ∨ msg.srvId ≠ id) : LagsAt more later id process where
  fs := interface ▸ lags.fs
  app := app ▸ lags.app
  curPrmIdx := interface ▸ lags.curPrmIdx
  invoked := interface ▸ lags.invoked
  failure := interface ▸ lags.failure
  results := interface ▸ lags.results
  raced := lags.raced
  clients client member := (lags.clients client member).imp_left fun called => made called
  awaited := by
    obtain ⟨handled, invoked, awaited⟩ := lags.awaited
    refine ⟨handled, invoked, fun msg member own => ?_⟩
    exact awaited msg ((sent msg member).resolve_right (absurd own)) own
  applying := lags.applying
  given thread member waits := seen (lags.given thread member waits)

/-- The thread of `apply` goes on to a stage at which its promise is set as before. -/
theorem goOn (lags : LagsAt calls replicas id process) {thread : ApplyThread Any}
    {stage : ApplyStage} (applies : process.applying = some thread)
    (unset : ({ thread with stage } : ApplyThread Any).unset = thread.unset) :
    LagsAt calls replicas id { process with applying := some { thread with stage } } where
  fs := lags.fs
  app := lags.app
  curPrmIdx := lags.curPrmIdx
  invoked := lags.invoked
  failure := lags.failure
  results := by
    rw [lags.results, InterfaceProcess.pending_of_applying applies,
      InterfaceProcess.pending_of_applying rfl, unset]
  raced := lags.raced
  clients := lags.clients
  awaited := by
    obtain ⟨handled, invoked, awaited⟩ := lags.awaited
    exact ⟨handled, by rw [invoked, applies]; rfl, awaited⟩
  applying := by
    rintro _ ⟨⟩
    exact lags.applying thread applies
  given := by
    rintro _ ⟨⟩ waits
    exact lags.given thread applies (unset ▸ waits)

theorem emplace (lags : LagsAt calls replicas id process) {position : Nat} {client : CallThread}
    (present : process.clients[position]? = some client) :
    LagsAt calls replicas id
      { process with clients := process.clients.set position { client with emplacing := true } } :=
  { lags with
    clients := fun other member => by
      rcases List.mem_or_eq_of_mem_set member with old | rfl
      · exact lags.clients other old
      · exact lags.clients client (List.mem_of_getElem? present) }

/-- The promise is in the map before the command is sent. -/
theorem addLog (lags : LagsAt calls replicas id process) {position : Nat} {client : CallThread} :
    LagsAt (calls ++ [client.msg]) replicas id
      { process with
        clients := process.clients.eraseIdx position
        prms := process.prms.insert client.msg.prmIdx } :=
  { lags with
    clients := fun other member => lags.clients other (List.mem_of_mem_eraseIdx member)
    awaited := by
      obtain ⟨handled, invoked, awaited⟩ := lags.awaited
      refine ⟨handled, invoked, fun msg member own => ?_⟩
      rcases List.mem_append.mp member with old | new
      · exact (awaited msg old own).imp_left fun waits => List.mem_insert_of_mem waits
      · rw [List.mem_singleton.mp new]
        exact .inl List.mem_insert_self }

/-- The value of the promise is set. -/
theorem setValue (lags : LagsAt calls replicas id process) {thread : ApplyThread Any}
    (applies : process.applying = some thread) (unset : thread.unset = true) :
    LagsAt calls replicas id
      { process with
        applying := some { thread with stage := .erase }
        results := process.results ++ [(thread.entry.prmIdx, thread.res)] } where
  fs := lags.fs
  app := lags.app
  curPrmIdx := lags.curPrmIdx
  invoked := lags.invoked
  failure := lags.failure
  results := by
    rw [lags.results, InterfaceProcess.pending_of_applying applies,
      InterfaceProcess.pending_of_applying rfl, if_pos unset]
    simp [ApplyThread.unset]
  raced := lags.raced
  clients := lags.clients
  awaited := by
    obtain ⟨handled, invoked, awaited⟩ := lags.awaited
    exact ⟨handled, by rw [invoked, applies]; rfl, awaited⟩
  applying := by
    rintro _ ⟨⟩
    exact lags.applying thread applies
  given := by
    rintro _ ⟨⟩ ⟨⟩

/-- The promise leaves the map, and the entry is done. -/
theorem erased (lags : LagsAt calls replicas id process) {thread : ApplyThread Any}
    (applies : process.applying = some thread) (set : thread.unset = false) :
    LagsAt calls replicas id
      { process with applying := none, prms := process.prms.erase thread.entry.prmIdx } where
  fs := lags.fs
  app := lags.app
  curPrmIdx := lags.curPrmIdx
  invoked := lags.invoked
  failure := lags.failure
  results := by
    rw [lags.results, InterfaceProcess.pending_of_applying applies, set]
    rfl
  raced := lags.raced
  clients := lags.clients
  awaited := by
    obtain ⟨handled, invoked, awaited⟩ := lags.awaited
    refine ⟨handled ++ [thread.entry], by rw [invoked, applies]; simp, fun msg member own => ?_⟩
    rcases awaited msg member own with waits | ⟨entry, old, same⟩
    · by_cases now : msg.prmIdx = thread.entry.prmIdx
      · refine .inr ⟨thread.entry, by simp, ?_⟩
        rw [BasicLogEntry.key, AddLogMessage.key, lags.applying thread applies, own, now]
      · exact .inl ((List.mem_erase_of_ne now).mpr waits)
    · exact .inr ⟨entry, List.mem_append_left _ old, same⟩
  applying _ member := absurd member (Option.not_mem_none _)
  given _ member := absurd member (Option.not_mem_none _)

/-- A step inside `asyncCall` or `apply` is not noticed, when the promise looked for is there. -/
theorem inside (lags : LagsAt calls replicas id process) {act : InterfaceAct}
    {handed : List BasicLogEntry} {result : InterfaceResult App Any}
    (taken : process.step id handed act = some result)
    (within : act.goesOn = true)
    (free : process.Undisturbed act)
    (registered : ∀ thread ∈ process.applying, thread.entry.prmIdx ∈ process.prms ∨
      thread.stage ≠ .finding) :
    LagsAt (calls ++ result.calls) replicas id result.process ∧
      (∀ msg ∈ result.calls, msg ∈ replicas.system.calls ∧ msg.srvId = id) ∧
        (result.seen = [] ∨ ∃ key value, result.seen = [.respond key value] ∧
          .respond key value ∈ replicas.seen) := by
  -- most of these start no thread of `addLog` and show nothing
  have silent : ∀ later : InterfaceProcess App Any, LagsAt calls replicas id later →
      result = { process := later } →
      LagsAt (calls ++ result.calls) replicas id result.process ∧
        (∀ msg ∈ result.calls, msg ∈ replicas.system.calls ∧ msg.srvId = id) ∧
          (result.seen = [] ∨ ∃ key value, result.seen = [.respond key value] ∧
            .respond key value ∈ replicas.seen) := by
    rintro later holds rfl
    exact ⟨by rwa [List.append_nil], List.forall_mem_nil _, .inl rfl⟩
  cases act with
  | asyncCall | apply => cases within
  | emplace position =>
      obtain ⟨client, present, begins⟩ := Option.bind_eq_some_iff.mp taken
      obtain ⟨-, same⟩ := Option.ite_none_left_eq_some.mp begins
      rw [InterfaceProcess.enterMap_of_undisturbed free] at same
      exact silent _ (lags.emplace present) (Option.some.inj same).symm
  | addLog position emplaced =>
      obtain ⟨client, present, begins⟩ := Option.bind_eq_some_iff.mp taken
      obtain ⟨⟨-, done⟩, same⟩ := Option.ite_none_right_eq_some.mp begins
      have emplaced := done.resolve_right (by simp [lags.raced])
      rw [if_pos emplaced] at same
      obtain rfl := Option.some.inj same
      refine ⟨lags.addLog, ?_, .inl rfl⟩
      exact List.forall_mem_singleton.mpr (lags.clients client (List.mem_of_getElem? present))
  | find =>
      obtain ⟨thread, applies, same⟩ := Option.map_eq_some_iff.mp taken
      obtain ⟨applies, stage⟩ := InterfaceProcess.applyingAt_eq_some.mp applies
      rw [InterfaceProcess.enterMap_of_undisturbed free] at same
      exact silent _ (lags.goOn applies (by simp [ApplyThread.unset, stage])) same.symm
  | found known =>
      obtain ⟨thread, applies, begins⟩ := Option.bind_eq_some_iff.mp taken
      obtain ⟨applies, stage⟩ := InterfaceProcess.applyingAt_eq_some.mp applies
      obtain ⟨outcome, same⟩ := Option.ite_none_right_eq_some.mp begins
      have member := (registered thread applies).resolve_right (not_not.mpr stage)
      have there : known = true := by simpa [lags.raced, member] using outcome
      rw [if_pos there] at same
      exact silent _ (lags.goOn applies (by simp [ApplyThread.unset, stage]))
        (Option.some.inj same).symm
  | setValue =>
      obtain ⟨thread, applies, rfl⟩ := Option.map_eq_some_iff.mp taken
      obtain ⟨applies, stage⟩ := InterfaceProcess.applyingAt_eq_some.mp applies
      have unset : thread.unset = true := by simp [ApplyThread.unset, stage]
      refine ⟨?_, List.forall_mem_nil _, .inr ⟨_, _, rfl, lags.given thread applies unset⟩⟩
      rw [List.append_nil]
      exact lags.setValue applies unset
  | erase =>
      obtain ⟨thread, applies, same⟩ := Option.map_eq_some_iff.mp taken
      obtain ⟨applies, stage⟩ := InterfaceProcess.applyingAt_eq_some.mp applies
      rw [InterfaceProcess.enterMap_of_undisturbed free] at same
      exact silent _ (lags.goOn applies (by simp [ApplyThread.unset, stage])) same.symm
  | erased gone =>
      obtain ⟨thread, applies, begins⟩ := Option.bind_eq_some_iff.mp taken
      obtain ⟨applies, stage⟩ := InterfaceProcess.applyingAt_eq_some.mp applies
      obtain ⟨outcome, same⟩ := Option.ite_none_right_eq_some.mp begins
      rw [if_pos (outcome.resolve_right (by simp [lags.raced]))] at same
      exact silent _ (lags.erased applies (by simp [ApplyThread.unset, stage]))
        (Option.some.inj same).symm

/-- An entry without an operation is handled. -/
theorem unbound (lags : LagsAt calls replicas id process) {entry : BasicLogEntry}
    (idle : process.applying = none) (missing : process.fs entry.opName = none)
    (interface : later.system.interfaces id = (replicas.system.interfaces id).apply id entry)
    (apps : later.apps id = replicas.apps id)
    (made : later.system.calls = replicas.system.calls) :
    LagsAt calls later id
      { process with
        invoked := process.invoked ++ [entry]
        failure := some .unboundOperation } := by
  have dies : (replicas.system.interfaces id).apply id entry =
      { replicas.system.interfaces id with
        invoked := (replicas.system.interfaces id).invoked ++ [entry]
        failure := some .unboundOperation } := by
    unfold Interface.apply
    dsimp only
    rw [lags.fs, missing]
  rw [dies] at interface
  obtain ⟨handled, invoked, awaited⟩ := lags.awaited
  exact
    { fs := by rw [interface, ← lags.fs]
      app := by rw [apps, lags.app]
      curPrmIdx := by rw [interface, ← lags.curPrmIdx]
      invoked := by rw [interface, ← lags.invoked]
      failure := by rw [interface]
      results := by
        rw [interface]
        exact lags.results
      raced := lags.raced
      clients := fun client member => made ▸ lags.clients client member
      awaited := by
        refine ⟨handled ++ [entry], by simp [invoked, idle], fun msg member own => ?_⟩
        refine (awaited msg member own).imp_right fun ⟨old, before, same⟩ => ?_
        exact ⟨old, List.mem_append_left _ before, same⟩
      applying := lags.applying
      given := by simp [idle] }

/-- An entry of another server is handled. -/
theorem ofOther (lags : LagsAt calls replicas id process) {entry : BasicLogEntry}
    {f : ByteString → App → App × Any} (idle : process.applying = none)
    (known : process.fs entry.opName = some f) (other : entry.srvId ≠ id)
    (interface : later.system.interfaces id = (replicas.system.interfaces id).apply id entry)
    (apps : later.apps id = (f entry.args process.app).1)
    (made : later.system.calls = replicas.system.calls) :
    LagsAt calls later id
      { process with
        invoked := process.invoked ++ [entry]
        app := (f entry.args process.app).1
        applying := none } := by
  rw [Interface.apply_of_other (lags.fs ▸ known) other] at interface
  obtain ⟨handled, invoked, awaited⟩ := lags.awaited
  exact
    { fs := by rw [interface, ← lags.fs]
      app := apps
      curPrmIdx := by rw [interface, ← lags.curPrmIdx]
      invoked := by rw [interface, ← lags.invoked]
      failure := by rw [interface, ← lags.failure]
      results := by
        rw [interface]
        refine lags.results.trans ?_
        rw [InterfaceProcess.pending, InterfaceProcess.pending, idle]
      raced := lags.raced
      clients := fun client member => made ▸ lags.clients client member
      awaited := by
        refine ⟨handled ++ [entry], by simp [invoked, idle], fun msg member own => ?_⟩
        refine (awaited msg member own).imp_right fun ⟨old, before, same⟩ => ?_
        exact ⟨old, List.mem_append_left _ before, same⟩
      applying := by simp
      given := by simp }

/-- An entry of this server is handled, and its promise is still to be set. -/
theorem ofOwn (lags : LagsAt calls replicas id process) {entry : BasicLogEntry}
    {f : ByteString → App → App × Any} (idle : process.applying = none)
    (known : process.fs entry.opName = some f) (own : entry.srvId = id)
    (interface : later.system.interfaces id = (replicas.system.interfaces id).apply id entry)
    (apps : later.apps id = (f entry.args process.app).1)
    (made : later.system.calls = replicas.system.calls)
    (given : .respond entry.key (f entry.args process.app).2 ∈ later.seen)
    (registered : (later.system.interfaces id).failure ≠ some .promiseMissing) :
    LagsAt calls later id
      { process with
        invoked := process.invoked ++ [entry]
        app := (f entry.args process.app).1
        applying := some { entry, res := (f entry.args process.app).2 } } := by
  rw [interface] at registered
  rw [(Interface.apply_of_own (lags.fs ▸ known) own registered).2] at interface
  obtain ⟨handled, invoked, awaited⟩ := lags.awaited
  exact
    { fs := by rw [interface, ← lags.fs]
      app := apps
      curPrmIdx := by rw [interface, ← lags.curPrmIdx]
      invoked := by rw [interface, ← lags.invoked]
      failure := by rw [interface, ← lags.failure]
      results := by
        rw [interface, InterfaceProcess.pending_of_applying rfl]
        dsimp only
        rw [List.map_append, lags.results, InterfaceProcess.pending, idle]
        simp [ApplyThread.unset]
      raced := lags.raced
      clients := fun client member => made ▸ lags.clients client member
      awaited := ⟨handled, by simp [invoked, idle], awaited⟩
      applying := by
        rintro _ ⟨⟩
        exact own
      given := by
        rintro _ ⟨⟩ -
        exact given }

end LagsAt

namespace Lags

variable {config : ClusterConfig} {system before after : ThreadedSystem App Any}
  {replicas : Replicas App Any} {id : ServerId}

theorem init (config : ClusterConfig) (fs : ServerId → Operations App Any)
    (start : ServerId → App) :
    Lags config (.init fs start) { system := System.init fs, apps := start } where
  cluster := ThreadedCluster.shown_init config
  provenance := provenance_init []
  calls := List.Subset.refl _
  seen := .nil
  interfaces id := .init fs start id

/-- The promise of an entry that is being handled is in the map. -/
theorem registered (lags : Lags config system replicas)
    (once : System.OnceRecord config replicas.system) :
    ∀ thread ∈ (system.interfaces id).applying,
      thread.entry.prmIdx ∈ (system.interfaces id).prms ∨ thread.stage ≠ .finding := by
  intro thread applies
  left
  have interface := lags.interfaces id
  obtain ⟨handled, invoked, awaited⟩ := interface.awaited
  have ends : (replicas.system.interfaces id).invoked = handled ++ [thread.entry] := by
    rw [interface.invoked, invoked, applies]
    rfl
  have member : thread.entry ∈ applied (replicas.system.cluster id).sent :=
    (once.interfaces id).invoked.subset (ends ▸ by simp)
  obtain ⟨msg, called, same⟩ := once.exists_call lags.provenance member
  have own : msg.srvId = id := (congrArg BasicLogEntry.srvId same).trans
    (interface.applying thread applies)
  rcases awaited msg called own with waits | ⟨entry, old, key⟩
  · rwa [← same]
  · -- an entry with this key has been handled already
    have distinct := once.atMostOnce.invoked id
    rw [ends, List.map_append, List.nodup_append] at distinct
    refine absurd ?_ (distinct.2.2 entry.key (List.mem_map_of_mem old) thread.entry.key (by simp))
    rw [key, ← same]
    rfl

/-- What happens at one interface is not noticed by the others. -/
theorem update (lags : Lags config before replicas) {later : Replicas App Any}
    {result : InterfaceResult App Any} (interfaces : ∀ other, other ≠ id →
      later.system.interfaces other = replicas.system.interfaces other)
    (apps : ∀ other, other ≠ id → later.apps other = replicas.apps other)
    (cluster : later.system.cluster = replicas.system.cluster)
    (made : replicas.system.calls ⊆ later.system.calls) (given : replicas.seen ⊆ later.seen)
    (sent : ∀ msg ∈ result.calls, msg ∈ later.system.calls ∧ msg.srvId = id)
    (seen : Delays (before.seen ++ result.seen) later.seen)
    (acting : LagsAt (before.calls ++ result.calls) later id result.process) :
    Lags config { before with
      interfaces := Function.update before.interfaces id result.process
      calls := before.calls ++ result.calls
      seen := before.seen ++ result.seen } later where
  cluster := cluster ▸ lags.cluster
  provenance := cluster ▸ lags.provenance.mono (List.subset_append_left _ _)
  calls :=
    List.append_subset.mpr
      ⟨List.Subset.trans lags.calls made, fun msg member => (sent msg member).1⟩
  seen := seen
  interfaces other := by
    dsimp only
    by_cases same : other = id
    · subst same
      rwa [Function.update_self]
    · rw [Function.update_of_ne same]
      refine (lags.interfaces other).mono (interfaces other same) (apps other same) made given
        fun msg member => ?_
      refine (List.mem_append.mp member).imp_right fun new => ?_
      rw [(sent msg new).2]
      exact Ne.symm same

/-- A client draws the index of its promise: the call is made. -/
theorem asyncCall (lags : Lags config before replicas) {opName args : ByteString}
    (taken : ThreadedSystem.step config before (.interface id (.asyncCall opName args)) =
      some after) :
    ∃ later, Replicas.step config replicas (.asyncCall id opName args) = some later ∧
      Lags config after later := by
  obtain ⟨listed, result, acts, rfl⟩ := ThreadedSystem.step_interface.mp taken
  obtain rfl := Option.some.inj acts
  refine ⟨_, Replicas.step_eq_some.mpr ⟨_, System.step_asyncCall.mpr ⟨listed, rfl⟩, rfl⟩, ?_⟩
  have interface := lags.interfaces id
  have same : ((replicas.system.interfaces id).asyncCall id opName args).2 =
      { opName, args, prmIdx := (before.interfaces id).curPrmIdx, srvId := id } := by
    rw [← interface.curPrmIdx]
    rfl
  refine lags.update (fun other apart => Function.update_of_ne apart _ _) (fun _ _ => rfl) rfl
    (List.subset_append_left _ _) (List.subset_append_left _ _) (List.forall_mem_nil _) ?_ ?_
  · simp only [Replicas.observe, same]
    exact lags.seen.invoke _
  · rw [List.append_nil]
    refine
      { fs := ?_
        app := interface.app
        curPrmIdx := ?_
        invoked := ?_
        failure := ?_
        results := ?_
        raced := interface.raced
        clients := fun client member => ?_
        awaited := interface.awaited
        applying := interface.applying
        given := fun thread applies waits =>
          List.mem_append_left _ (interface.given thread applies waits) }
    · simpa using interface.fs
    · simp [Interface.asyncCall, interface.curPrmIdx]
    · simpa using interface.invoked
    · simpa [Interface.asyncCall] using interface.failure
    · refine Eq.trans ?_ interface.results
      simp [Interface.asyncCall]
    · dsimp only
      rcases List.mem_append.mp member with old | new
      · exact (interface.clients client old).imp_left (List.mem_append_left _)
      · rw [List.mem_singleton.mp new, same]
        exact ⟨List.mem_append_right _ (List.mem_singleton_self _), rfl⟩

/-- The next entry is handled: in the system its promise is set, too. -/
theorem apply (lags : Lags config before replicas)
    (once : System.OnceRecord config replicas.system)
    (taken : ThreadedSystem.step config before (.interface id .apply) = some after) :
    ∃ later, Replicas.step config replicas (.apply id) = some later ∧
      Lags config after later := by
  obtain ⟨-, result, acts, rfl⟩ := ThreadedSystem.step_interface.mp taken
  obtain ⟨alive, idle, entry, next, outcome⟩ := InterfaceProcess.step_apply acts
  have interface := lags.interfaces id
  have waiting : replicas.system.nextEntry id = some entry := by
    have begins := applied_prefix_of_prefix (lags.cluster id).sent_begins
    rw [System.nextEntry, if_pos (interface.failure.trans alive), interface.invoked,
      Linearizability.getElem?_of_begins begins (List.getElem?_eq_some_iff.mp next).1, next]
  obtain ⟨system, moved⟩ : ∃ system, replicas.system.step config (.apply id) = some system :=
    ⟨_, System.step_apply.mpr ⟨entry, waiting, rfl⟩⟩
  have registered := ((once.step moved trivial).interfaces id).registered
  obtain ⟨entry', waiting', rfl⟩ := System.step_apply.mp moved
  obtain rfl : entry = entry' := Option.some.inj (waiting.symm.trans waiting')
  refine ⟨_, Replicas.step_eq_some.mpr ⟨_, moved, rfl⟩, ?_⟩
  have acting : (Function.update replicas.system.interfaces id
      ((replicas.system.interfaces id).apply id entry)) id =
        (replicas.system.interfaces id).apply id entry := Function.update_self ..
  simp only [Replicas.observe, waiting]
  rcases outcome with ⟨missing, rfl⟩ | ⟨f, known, rfl⟩
  · rw [Replicas.apply_of_unbound (interface.fs.symm ▸ missing)]
    refine lags.update (fun other apart => Function.update_of_ne apart _ _) (fun _ _ => rfl) rfl
      (List.Subset.refl _) (List.Subset.refl _) (List.forall_mem_nil _) ?_ ?_
    · rw [List.append_nil]
      exact lags.seen
    · rw [List.append_nil]
      exact interface.unbound idle missing acting rfl rfl
  · have known' : (replicas.system.interfaces id).fs entry.opName = some f :=
      interface.fs.symm ▸ known
    have apps : (replicas.apply id entry).apps =
        Function.update replicas.apps id (f entry.args (before.interfaces id).app).1 := by
      rw [Replicas.apply_apps known', interface.app]
    by_cases own : entry.srvId = id
    · have waits := (Interface.apply_of_own known' own (acting ▸ registered)).1
      have seen : (replicas.apply id entry).seen = replicas.seen ++
          [.respond entry.key (f entry.args (before.interfaces id).app).2] := by
        rw [Replicas.apply_seen_of_own known' own waits, interface.app]
      refine lags.update (fun other apart => Function.update_of_ne apart _ _) ?_ rfl
        (List.Subset.refl _) ?_ (List.forall_mem_nil _) ?_ ?_
      · intro other apart
        rw [apps, Function.update_of_ne apart]
      · rw [seen]
        exact List.subset_append_left _ _
      · rw [List.append_nil, seen]
        exact lags.seen.given _ _
      · rw [List.append_nil, if_pos own]
        refine interface.ofOwn idle known own acting ?_ rfl ?_ registered
        · rw [apps, Function.update_self]
        · rw [seen]
          exact List.mem_append_right _ (List.mem_singleton_self _)
    · have seen := Replicas.apply_seen_of_other known' own
      refine lags.update (fun other apart => Function.update_of_ne apart _ _) ?_ rfl
        (List.Subset.refl _) ?_ (List.forall_mem_nil _) ?_ ?_
      · intro other apart
        rw [apps, Function.update_of_ne apart]
      · rw [seen]
        exact List.Subset.refl _
      · rw [List.append_nil, seen]
        exact lags.seen
      · rw [List.append_nil, if_neg own]
        refine interface.ofOther idle known own acting ?_ rfl
        rw [apps, Function.update_self]

/-- A thread inside `asyncCall` or `apply` goes on. -/
theorem inside (lags : Lags config before replicas)
    (once : System.OnceRecord config replicas.system) {act : InterfaceAct}
    (taken : ThreadedSystem.step config before (.interface id act) = some after)
    (within : act.goesOn = true)
    (free : (before.interfaces id).Undisturbed act) : Lags config after replicas := by
  obtain ⟨-, result, acts, rfl⟩ := ThreadedSystem.step_interface.mp taken
  obtain ⟨acting, sent, shown⟩ :=
    (lags.interfaces id).inside acts within free (lags.registered once)
  refine lags.update (fun _ _ => rfl) (fun _ _ => rfl) rfl (List.Subset.refl _)
    (List.Subset.refl _) sent ?_ acting
  rcases shown with nothing | ⟨key, value, respond, given⟩
  · rw [nothing, List.append_nil]
    exact lags.seen
  · rw [respond]
    exact lags.seen.respond given

/-- A thread of a server goes on. -/
theorem raft (lags : Lags config before replicas) {label : ServerId × Act Event}
    (taken : ThreadedSystem.step config before (.raft label) = some after)
    (steady : ThreadedCluster.Steady config before.cluster label after.cluster) :
    Lags config after replicas ∨ ∃ event later,
      Replicas.step config replicas (.raft (label.1, event)) = some later ∧
        (replicas.system.cluster label.1).Steady (config.info label.1) event ∧
          Lags config after later := by
  obtain ⟨called, cluster, moved, rfl⟩ := ThreadedSystem.step_raft.mp taken
  obtain ⟨self, act⟩ := label
  cases act with
  | go position => exact .inl { lags with cluster := lags.cluster.go moved }
  | start event =>
      rcases lags.cluster.start moved steady.1 with ⟨cluster', whole, shown⟩ | ⟨-, shown⟩
      · right
        have command : ∀ msg ∈ event.command, msg ∈ replicas.system.calls :=
          fun msg member => lags.calls (called msg member)
        refine ⟨event, _, Replicas.step_eq_some.mpr
          ⟨_, System.step_raft.mpr ⟨command, cluster', whole, rfl⟩, rfl⟩, ?_, ?_⟩
        · rw [lags.cluster.node_eq steady.1]
          exact steady.2
        · exact
            { cluster := shown
              provenance := lags.provenance.step whole called
              calls := lags.calls
              seen := lags.seen
              interfaces := fun other => (lags.interfaces other).mono rfl rfl
                (List.Subset.refl _) (List.Subset.refl _) fun msg member => .inl member }
      · exact .inl { lags with cluster := shown }

end Lags

/-! ## Runs -/

namespace ThreadedSystem

variable {config : ClusterConfig} {system before after final : ThreadedSystem App Any}
  {action : ThreadedAction} {actions : List ThreadedAction}

/-- No operation of `prms` meets another one or an iterator. -/
def RaceFree (before : ThreadedSystem App Any) : ThreadedAction → Prop
  | .interface id act => (before.interfaces id).Undisturbed act
  | .raft _ | .addLogReply .. => True

/-- The servers take steady sections. -/
def SteadyServers (config : ClusterConfig) (before : ThreadedSystem App Any) :
    ThreadedAction → ThreadedSystem App Any → Prop
  | .raft label, after => ThreadedCluster.Steady config before.cluster label after.cluster
  | .interface .., _ | .addLogReply .., _ => True

/-- Both are the case. -/
def Steady (config : ClusterConfig) (before : ThreadedSystem App Any) (action : ThreadedAction)
    (after : ThreadedSystem App Any) : Prop :=
  before.RaceFree action ∧ SteadyServers config before action after

instance (before : ThreadedSystem App Any) : (action : ThreadedAction) →
    Decidable (before.RaceFree action)
  | .interface id act => inferInstanceAs (Decidable ((before.interfaces id).Undisturbed act))
  | .raft _ | .addLogReply .. => .isTrue trivial

instance (before : ThreadedSystem App Any) : (action : ThreadedAction) →
    (after : ThreadedSystem App Any) → Decidable (SteadyServers config before action after)
  | .raft label, after =>
      inferInstanceAs (Decidable (ThreadedCluster.Steady config before.cluster label after.cluster))
  | .interface .., _ | .addLogReply .., _ => .isTrue trivial

instance (before after : ThreadedSystem App Any) (action : ThreadedAction) :
    Decidable (Steady config before action after) := inferInstanceAs (Decidable (_ ∧ _))

/-- A step of one thread is a step of the system behind which the threads lag, or not noticed. -/
theorem lags_step {replicas : Replicas App Any} (lags : Lags config before replicas)
    (once : System.OnceRecord config replicas.system)
    (taken : ThreadedSystem.step config before action = some after)
    (steady : Steady config before action after) :
    Lags config after replicas ∨ ∃ action' later,
      Replicas.step config replicas action' = some later ∧
        Replicas.Steady config replicas action' later ∧ Lags config after later := by
  cases action with
  | interface id act =>
      cases act with
      | asyncCall opName args =>
          obtain ⟨later, moved, lagging⟩ := lags.asyncCall taken
          exact .inr ⟨_, later, moved, trivial, lagging⟩
      | apply =>
          obtain ⟨later, moved, lagging⟩ := lags.apply once taken
          exact .inr ⟨_, later, moved, trivial, lagging⟩
      | _ => exact .inl (lags.inside once taken rfl steady.1)
  | raft label =>
      refine (lags.raft taken steady.2).imp_right fun ⟨event, later, moved, safe, lagging⟩ => ?_
      exact ⟨_, later, moved, safe, lagging⟩
  | addLogReply msg server reply =>
      obtain ⟨-, rfl⟩ := step_addLogReply.mp taken
      refine .inl ?_
      split_ifs
      · exact ⟨lags.cluster, lags.provenance, lags.calls, lags.seen, lags.interfaces⟩
      · exact lags

/-- Clients see an answer that was given before, if anything but a call. -/
theorem seen_step {replicas : Replicas App Any} (lags : Lags config before replicas)
    (once : System.OnceRecord config replicas.system)
    (taken : ThreadedSystem.step config before action = some after)
    (free : before.RaceFree action) (other : action.IsCall = false) :
    after.seen = before.seen ∨ ∃ key value, after.seen = before.seen ++ [.respond key value] ∧
      .respond key value ∈ replicas.seen := by
  cases action with
  | interface id act =>
      obtain ⟨-, result, acts, rfl⟩ := step_interface.mp taken
      dsimp only
      cases act with
      | asyncCall => cases other
      | apply =>
          obtain ⟨-, -, entry, -, ⟨-, rfl⟩ | ⟨f, -, rfl⟩⟩ := InterfaceProcess.step_apply acts
          · exact .inl (List.append_nil _)
          · exact .inl (List.append_nil _)
      | _ =>
          obtain ⟨-, -, shown⟩ :=
            (lags.interfaces id).inside acts rfl free (lags.registered once)
          rcases shown with nothing | ⟨key, value, respond, given⟩
          · exact .inl (by rw [nothing, List.append_nil])
          · exact .inr ⟨key, value, by rw [respond], given⟩
  | raft label =>
      obtain ⟨-, cluster, -, rfl⟩ := step_raft.mp taken
      exact .inl rfl
  | addLogReply msg server reply =>
      obtain ⟨-, rfl⟩ := step_addLogReply.mp taken
      exact .inl (by split_ifs <;> rfl)

/-- What the steps of the system preserve holds of one that the threads lag behind. -/
theorem exists_lags {fs : ServerId → Operations App Any} {start : ServerId → App}
    {invariant : Replicas App Any → Prop}
    (once : ∀ replicas, invariant replicas → System.OnceRecord config replicas.system)
    (preserved : ∀ before action after, invariant before →
      Replicas.step config before action = some after →
      Replicas.Steady config before action after → invariant after)
    (holds : invariant { system := System.init fs, apps := start })
    (steady : Execution.Along (step config) (Steady config) actions (init fs start))
    (execution : Execution.run (step config) actions (init fs start) = some final) :
    ∃ replicas, Lags config final replicas ∧ invariant replicas := by
  refine Execution.invariant_of_along
    (fun before action after
      (lagging : ∃ replicas, Lags config before replicas ∧ invariant replicas) taken careful => ?_)
    ⟨_, .init config fs start, holds⟩ steady execution
  obtain ⟨replicas, lags, holds⟩ := lagging
  rcases lags_step lags (once _ holds) taken careful with same | ⟨action', later, moved, safe, lags⟩
  · exact ⟨replicas, same, holds⟩
  · exact ⟨later, lags, preserved _ _ _ holds moved safe⟩

/-- No server has handled a command twice, no assertion about promises has failed, and no promise
has been set twice. -/
structure AtMostOnce (system : ThreadedSystem App Any) : Prop where
  /-- `apply` has been called at most once for each call. -/
  invoked : ∀ id, ((system.interfaces id).invoked.map BasicLogEntry.key).Nodup
  /-- The promise was registered whenever `apply` needed it. -/
  registered : ∀ id, (system.interfaces id).failure ≠ some .promiseMissing
  /-- Promises have been set at most once. -/
  results : ∀ id, ((system.interfaces id).results.map Prod.fst).Nodup

theorem atMostOnce_of_lags {replicas : Replicas App Any} (lags : Lags config system replicas)
    (once : System.AtMostOnce replicas.system) : AtMostOnce system where
  invoked id := (lags.interfaces id).invoked ▸ once.invoked id
  registered id := (lags.interfaces id).failure ▸ once.registered id
  results id := by
    have distinct := once.results id
    rw [(lags.interfaces id).results, List.nodup_append] at distinct
    exact distinct.1

/-- In a run of steady sections without races every call takes effect at most once on every
server. -/
theorem atMostOnce_of_steady (config : ClusterConfig) (fs : ServerId → Operations App Any)
    (start : ServerId → App)
    (steady : Execution.Along (step config) (Steady config) actions (init fs start))
    (execution : Execution.run (step config) actions (init fs start) = some final) :
    AtMostOnce final := by
  have preserved := fun (before : Replicas App Any) action after
    (record : System.OnceRecord config before.system)
    (taken : Replicas.step config before action = some after)
    (steady : Replicas.Steady config before action after) =>
    show System.OnceRecord config after.system from by
      obtain ⟨system, moved, same⟩ := Replicas.step_eq_some.mp taken
      exact record.step (by rw [moved, same]) steady
  obtain ⟨replicas, lags, record⟩ := exists_lags (fun _ record => record) preserved
    (System.OnceRecord.init config fs) steady execution
  exact atMostOnce_of_lags lags record.atMostOnce

/-! ### Calls that are handled once, and twice -/

/-- An application with a vector, to which its operation appends.  It returns the size before. -/
def vector : Operations (List ByteString) Nat := fun opName =>
  if opName = "add" then some fun args vec => (vec ++ [args], vec.length) else none

/-- A client of a server makes a call. -/
def call (id : ServerId) (args : ByteString) : List ThreadedAction :=
  [.interface id (.asyncCall "add" args), .interface id (.emplace 0),
    .interface id (.addLog 0 true)]

/-- The application of a server handles the next entry, whose promise is found or not. -/
def handle (id : ServerId) (registered : Bool) : List ThreadedAction :=
  [.interface id .apply, .interface id .find, .interface id (.found registered)]

/-- The promise is set. -/
def answer (id : ServerId) : List ThreadedAction :=
  [.interface id .setValue, .interface id .erase, .interface id (.erased true)]

/-- The second call of the client of server 1 is handled by servers 1 and 3. -/
def firstCall : List ThreadedAction :=
  call (localServer 1) "0" ++ call (localServer 1) "1" ++ ThreadedCluster.firstRun.map .raft ++
    handle (localServer 1) true ++ answer (localServer 1) ++ [.interface (localServer 3) .apply]

/-- Its promise is set. -/
theorem atMostOnce_first_call :
    ∃ final ∈ Execution.run (step trio) firstCall (init (fun _ => vector) fun _ => []),
      (final.interfaces (localServer 1)).results = [(1, 0)] ∧ AtMostOnce final := by
  have enabled : ∃ final ∈
      Execution.run (step trio) firstCall (init (fun _ => vector) fun _ => []),
        (final.interfaces (localServer 1)).results = [(1, 0)] := by
    decide +kernel
  obtain ⟨final, execution, results⟩ := enabled
  exact ⟨final, execution, results,
    atMostOnce_of_steady trio _ _ (by decide +kernel) execution⟩

/-- Server 1 hands its command over. -/
def handedOver : List ThreadedAction :=
  call (localServer 1) "0" ++ call (localServer 1) "1" ++
    (seriallyAt (Cluster.firstElection ++ Cluster.firstReplication ++ Cluster.firstCommit ++
        [(localServer 1, .countReplica (localServer 2))])
      [1, 10, 5, 2, 2, 3, 0, 0, 2, 8, 0, 2, 4]).map .raft

/-- The message that carries the rival command and then the first one again. -/
def repeatedMessage (commitIdx : Nat) : AppendEntriesMessage :=
  { term := 2
    leaderId := localServer 3
    logEntries :=
      [Server.logEntry Cluster.rivalCommand 2, Server.logEntry Cluster.firstCommand 2]
    commitIdx }

/-- Server 3 is elected in term 2 with an empty log, stores the command of its own client and then
the command that server 1 has handled, and commits both with server 2. -/
def repeatedCommit : List (ServerId × Act Event) :=
  seriallyAt
    [(localServer 3, .timeout), (localServer 3, .transform),
      (localServer 3, .timeout), (localServer 3, .transform),
      (localServer 2, .rpcRequestVote (Cluster.firstRequest 2 (localServer 3))),
      (localServer 3, .receiveVote (localServer 2)
        (Cluster.firstRequest 2 (localServer 3)) (2, true)),
      (localServer 3, .transform),
      (localServer 3, .rpcAddLog Cluster.rivalCommand), (localServer 3, .addLogState),
      (localServer 3, .rpcAddLog Cluster.firstCommand), (localServer 3, .addLogState),
      (localServer 3, .startAppending (localServer 2)),
      (localServer 3, .sendAppendEntries (localServer 2)),
      (localServer 2, .rpcAppendEntries (repeatedMessage 0)),
      (localServer 3, .receiveAppendReply (localServer 2) (repeatedMessage 0) (2, true)),
      (localServer 3, .countReplica (localServer 2)),
      (localServer 3, .countReplica (localServer 2)),
      (localServer 3, .startAppending (localServer 1)),
      (localServer 3, .sendAppendEntries (localServer 1)),
      (localServer 1, .rpcAppendEntries (repeatedMessage 2))]
    [1, 10, 1, 10, 5, 2, 2, 3, 0, 3, 0, 0, 2, 8, 0, 2, 2, 0, 2, 11]

/-- The second call of the client of server 1 is handled by server 1, and then once more. -/
def repeatedCall : List ThreadedAction :=
  call (localServer 3) "0" ++ call (localServer 3) "2" ++ handedOver ++
    handle (localServer 1) true ++ answer (localServer 1) ++ repeatedCommit.map .raft ++
    handle (localServer 1) false

/-- While another client of server 1 puts its promise into `prms`, the promise of the second call is
looked for and not found. -/
def racingCall : List ThreadedAction :=
  handedOver ++
    [.interface (localServer 1) (.asyncCall "add" "3"), .interface (localServer 1) .apply,
      .interface (localServer 1) (.emplace 0), .interface (localServer 1) .find,
      .interface (localServer 1) (.found false)]

/-- Server 1 handles the command a second time, when its promise is no longer registered.  Where
`find` races with `emplace`, the assertion fails though the servers take steady sections. -/
theorem atMostOnce_counterexample :
    (∃ final ∈ Execution.run (step trio) repeatedCall (init (fun _ => vector) fun _ => []),
      ¬ AtMostOnce final) ∧
    Execution.Along (step trio) (SteadyServers trio) racingCall
        (init (fun _ => vector) fun _ => []) ∧
      ∃ final ∈ Execution.run (step trio) racingCall (init (fun _ => vector) fun _ => []),
        ¬ AtMostOnce final := by
  refine ⟨?_, by decide +kernel, ?_⟩
  · obtain ⟨final, execution, twice⟩ : ∃ final ∈
        Execution.run (step trio) repeatedCall (init (fun _ => vector) fun _ => []),
          ¬ ((final.interfaces (localServer 1)).invoked.map BasicLogEntry.key).Nodup ∧
            (final.interfaces (localServer 1)).failure = some .promiseMissing := by
      decide +kernel
    exact ⟨final, execution, fun once => twice.1 (once.invoked (localServer 1))⟩
  · obtain ⟨final, execution, missing⟩ : ∃ final ∈
        Execution.run (step trio) racingCall (init (fun _ => vector) fun _ => []),
          (final.interfaces (localServer 1)).failure = some .promiseMissing := by
      decide +kernel
    exact ⟨final, execution, fun once => once.registered (localServer 1) missing⟩

/-! ### One order of the calls -/

/-- The entries that a server's application has performed. -/
def performed (system : ThreadedSystem App Any) (id : ServerId) : List BasicLogEntry :=
  (system.interfaces id).invoked

/-- How many calls have been made at a server. -/
def made (system : ThreadedSystem App Any) (id : ServerId) : Nat :=
  (invocations system.seen).countP (·.srvId = id)

/-- Clients see what they see of the system behind which the threads lag, but later. -/
theorem linearizes_of_lags {fs : Operations App Any} {start : App} {replicas : Replicas App Any}
    (lags : Lags config system replicas) (record : Replicas.Record config fs start replicas)
    (enough : ∀ id, system.made id ≤ UInt64.size) :
    ∃ order, Linearizes (Replicas.object fs start) order system.seen ∧
      ∀ id, system.performed id <+: order ∧
        (system.interfaces id).app = (Replicas.object fs start).after (system.performed id) := by
  have enough' : ∀ id, replicas.made id ≤ UInt64.size := by
    intro id
    refine (Nat.le_of_eq ?_).trans (enough id)
    rw [made, lags.seen.invocations, record.calls.seen, Replicas.made, List.countP_map]
    rfl
  obtain ⟨order, linearizes, begins⟩ := (record.replicates enough').linearizes
  have same : ∀ id, replicas.performed id = system.performed id :=
    fun id => (lags.interfaces id).invoked
  refine ⟨order, linearizes.delay lags.seen, fun id => ⟨same id ▸ begins id, ?_⟩⟩
  rw [← (lags.interfaces id).app, record.apps, same]

/-- In a run of steady sections without races in which no server runs out of promises, the clients
see one application that performs the calls in some order, and the servers perform beginnings of
it. -/
theorem linearizable_of_steady (config : ClusterConfig) (fs : Operations App Any) (start : App)
    (steady : Execution.Along (step config) (Steady config) actions
      (init (fun _ => fs) fun _ => start))
    (execution : Execution.run (step config) actions (init (fun _ => fs) fun _ => start) =
      some final)
    (enough : ∀ id, final.made id ≤ UInt64.size) :
    ∃ order, Linearizes (Replicas.object fs start) order final.seen ∧
      ∀ id, final.performed id <+: order ∧
        (final.interfaces id).app = (Replicas.object fs start).after (final.performed id) := by
  have preserved := fun (before : Replicas App Any) action after
    (record : Replicas.Record config fs start before)
    (taken : Replicas.step config before action = some after)
    (steady : Replicas.Steady config before action after) => record.step taken steady
  obtain ⟨replicas, lags, record⟩ := exists_lags (fun _ record => record.once) preserved
    (.init config fs start) steady execution
  exact linearizes_of_lags lags record enough

/-- Servers 1 and 3 have the value of the second call of the client of server 1, who has seen the
size it found. -/
theorem linearizable_first_call :
    ∃ final ∈ Execution.run (step trio) firstCall (init (fun _ => vector) fun _ => []),
      final.seen.getLast? = some (.respond (localServer 1, 1) 0) ∧
        (final.interfaces (localServer 1)).app = ["1"] ∧
        (final.interfaces (localServer 3)).app = ["1"] ∧
        ∃ order, Linearizes (Replicas.object vector []) order final.seen ∧
          ∀ id, final.performed id <+: order ∧ (final.interfaces id).app =
            (Replicas.object vector []).after (final.performed id) := by
  have enabled : ∃ final ∈
      Execution.run (step trio) firstCall (init (fun _ => vector) fun _ => []),
        final.seen.getLast? = some (.respond (localServer 1, 1) 0) ∧
          (final.interfaces (localServer 1)).app = ["1"] ∧
          (final.interfaces (localServer 3)).app = ["1"] ∧
          (invocations final.seen).length = 2 := by
    decide +kernel
  obtain ⟨final, execution, answered, first, third, two⟩ := enabled
  have enough : ∀ id, final.made id ≤ UInt64.size := fun id =>
    (List.countP_le_length.trans two.le).trans (by decide)
  exact ⟨final, execution, answered, first, third,
    linearizable_of_steady trio vector [] (by decide +kernel) execution enough⟩

end ThreadedSystem

end Quintet
