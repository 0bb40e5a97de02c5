import QuintetRaft.Model.Replicas
import QuintetRaft.Safety.CallNumbers

/-!
# The system is linearizable

In every run of steady steps the clients see a single application that performs their calls one at
a time, each between the moment it is made and the moment its promise is set.
-/

namespace Quintet

open Linearizability (Linearizes Answered invocations)

/-! ## Where entries come from -/

namespace System.OnceRecord

variable {Any : Type} {config : ClusterConfig} {system : System Any}

/-- Behind the sentinel there is no other one. -/
theorem notMem_tail (record : OnceRecord config system) (id : ServerId) :
    ({} : LogEntry) ∉ (system.cluster id).server.state.entries.drop 1 := by
  obtain ⟨history, simulates, unique⟩ := record.simulates
  have begins := simulates.sound.begins id
  have distinct := unique.logs id
  rw [(simulates.present id).log] at begins
  obtain ⟨rest, same⟩ := begins
  rw [← same, DistinctKeys, List.map_append, List.map_singleton, List.singleton_append,
    List.nodup_cons] at distinct
  rw [← same]
  exact fun member => distinct.1 (List.mem_map_of_mem member)

/-- What is handed over was called for. -/
theorem exists_call (record : OnceRecord config system) {calls : List AddLogMessage}
    (provenance : Provenance calls system.cluster) {id : ServerId} {entry : BasicLogEntry}
    (member : entry ∈ applied (system.cluster id).sent) :
    ∃ msg ∈ calls, msg.toBasic = entry := by
  obtain ⟨history, simulates, -⟩ := record.simulates
  rw [(simulates.handed id).handed] at member
  obtain ⟨logged, inSlice, rfl⟩ := List.mem_map.mp member
  rw [List.drop_take] at inSlice
  have inTail := List.mem_of_mem_take inSlice
  rcases provenance.logs id logged (List.mem_of_mem_drop inTail) with rfl | called
  · exact absurd inTail (record.notMem_tail id)
  · obtain ⟨msg, called, stored⟩ := called
    exact ⟨msg, called, by rw [stored, toBasic_logEntry]⟩

end System.OnceRecord

/-! ## The interfaces -/

namespace Interface

variable {Any : Type} (localId : ServerId) (entry : BasicLogEntry) (interface : Interface Any)

@[simp] theorem asyncCall_invoked (opName args : ByteString) :
    (interface.asyncCall localId opName args).1.invoked = interface.invoked := rfl

@[simp] theorem asyncCall_fs (opName args : ByteString) :
    (interface.asyncCall localId opName args).1.fs = interface.fs := rfl

@[simp] theorem apply_invoked :
    (interface.apply localId entry).invoked = interface.invoked ++ [entry] := by
  unfold apply setPromise
  dsimp only
  split
  · rfl
  · split_ifs <;> rfl

@[simp] theorem apply_fs : (interface.apply localId entry).fs = interface.fs := by
  unfold apply setPromise
  dsimp only
  split
  · rfl
  · split_ifs <;> rfl

end Interface

namespace Replicas

variable {App Any : Type} {config : ClusterConfig} {fs : Operations App Any} {start : App}
  {replicas before after final : Replicas App Any} {action : Action} {actions : List Action}
  {id : ServerId} {opName args : ByteString}

/-- The entries that a server's application has performed. -/
def performed (replicas : Replicas App Any) (id : ServerId) : List BasicLogEntry :=
  (replicas.system.interfaces id).invoked

/-- The servers take steady steps. -/
def Steady (config : ClusterConfig) (before : Replicas App Any) (action : Action)
    (after : Replicas App Any) : Prop :=
  System.Steady config before.system action after.system

instance (before : Replicas App Any) (action : Action) (after : Replicas App Any) :
    Decidable (Steady config before action after) :=
  inferInstanceAs (Decidable (System.Steady config before.system action after.system))

/-- How many calls have been made at a server. -/
def made (replicas : Replicas App Any) (id : ServerId) : Nat :=
  replicas.system.calls.countP (·.srvId = id)

/-- The calls that have been made are those the clients have seen, and have been numbered. -/
structure CallRecord (replicas : Replicas App Any) : Prop where
  /-- All calls are seen. -/
  seen : invocations replicas.seen = replicas.system.calls.map AddLogMessage.toBasic
  /-- They have numbers. -/
  numbered : replicas.system.Numbered

/-- The message of a call. -/
def callMessage (replicas : Replicas App Any) (id : ServerId) (opName args : ByteString) :
    AddLogMessage :=
  ((replicas.system.interfaces id).asyncCall id opName args).2

/-- What a call does. -/
theorem step_asyncCall (taken : step config before (.asyncCall id opName args) = some after) :
    after.system.calls = before.system.calls ++ [before.callMessage id opName args] ∧
      after.seen = before.seen ++ [.invoke (before.callMessage id opName args).toBasic] ∧
      after.apps = before.apps ∧
      after.system.interfaces = Function.update before.system.interfaces id
        ((before.system.interfaces id).asyncCall id opName args).1 := by
  obtain ⟨system, moved, rfl⟩ := step_eq_some.mp taken
  obtain ⟨-, rfl⟩ := System.step_asyncCall.mp moved
  exact ⟨rfl, rfl, rfl, rfl⟩

/-- What handling an entry does. -/
theorem step_apply (taken : step config before (.apply id) = some after) :
    ∃ entry, before.system.nextEntry id = some entry ∧
      after.system.calls = before.system.calls ∧
      after.system.interfaces = Function.update before.system.interfaces id
        ((before.system.interfaces id).apply id entry) ∧
      after.apps = (before.apply id entry).apps ∧ after.seen = (before.apply id entry).seen := by
  obtain ⟨system, moved, rfl⟩ := step_eq_some.mp taken
  obtain ⟨entry, next, rfl⟩ := System.step_apply.mp moved
  exact ⟨entry, next, rfl, rfl, by simp only [observe, next], by simp only [observe, next]⟩

/-- The application performs the entry, and a value that is seen is what this returns. -/
theorem apply_spec (bound : (replicas.system.interfaces id).fs = fs) (start : App)
    (entry : BasicLogEntry) :
    (replicas.apply id entry).apps =
        Function.update replicas.apps id ((object fs start).perform entry (replicas.apps id)).1 ∧
      ((replicas.apply id entry).seen = replicas.seen ∨
        ∃ res, ((object fs start).perform entry (replicas.apps id)).2 = some res ∧
          (replicas.apply id entry).seen = replicas.seen ++ [.respond entry.key res]) := by
  subst bound
  unfold apply object
  dsimp only
  cases (replicas.system.interfaces id).fs entry.opName with
  | none => exact ⟨(Function.update_eq_self id replicas.apps).symm, .inl rfl⟩
  | some f =>
      refine ⟨rfl, ?_⟩
      dsimp only
      split_ifs
      · exact .inr ⟨_, rfl, rfl⟩
      · exact .inl rfl

namespace CallRecord

theorem asyncCall (record : CallRecord before)
    (taken : step config before (.asyncCall id opName args) = some after) : CallRecord after := by
  obtain ⟨calls, seen, -, interfaces⟩ := step_asyncCall taken
  exact ⟨by simp [calls, seen, record.seen], record.numbered.asyncCall calls interfaces⟩

/-- No call is made twice. -/
theorem once (record : CallRecord replicas) (enough : ∀ id, replicas.made id ≤ UInt64.size) :
    (invocations replicas.seen).Nodup := by
  refine List.Nodup.of_map BasicLogEntry.key ?_
  rw [record.seen, List.map_map]
  exact record.numbered.distinct enough

end CallRecord

/-- The applications have performed the entries they were handed, and clients have seen what this
returned. -/
structure Record (config : ClusterConfig) (fs : Operations App Any) (start : App)
    (replicas : Replicas App Any) : Prop where
  /-- No command is handled twice. -/
  once : System.OnceRecord config replicas.system
  /-- The calls are those the clients have seen. -/
  calls : CallRecord replicas
  /-- All servers run the same application. -/
  bound : ∀ id, (replicas.system.interfaces id).fs = fs
  /-- Its data are the result of the entries it has performed. -/
  apps : ∀ id, replicas.apps id = (object fs start).after (replicas.performed id)
  /-- The values come from there. -/
  answered : Answered (object fs start) replicas.performed replicas.seen

namespace Record

theorem init (config : ClusterConfig) (fs : Operations App Any) (start : App) :
    Record config fs start (init fs start) where
  once := .init config _
  calls := ⟨rfl, System.numbered_init _⟩
  bound _ := rfl
  apps _ := rfl
  answered := .nil _ _

/-- What an application has performed was called for by clients. -/
theorem invoked (record : Record config fs start replicas) {id : ServerId} {entry : BasicLogEntry}
    (member : entry ∈ applied (replicas.system.cluster id).sent) :
    .invoke entry ∈ replicas.seen := by
  obtain ⟨msg, called, rfl⟩ := record.once.exists_call record.once.provenance member
  rw [← Linearizability.mem_invocations, record.calls.seen]
  exact List.mem_map_of_mem called

theorem asyncCall (record : Record config fs start before)
    (taken : step config before (.asyncCall id opName args) = some after)
    (once : System.OnceRecord config after.system) : Record config fs start after := by
  obtain ⟨-, seen, apps, interfaces⟩ := step_asyncCall taken
  have unchanged : ∀ other, after.performed other = before.performed other := fun other => by
    rw [performed, interfaces]
    exact Interface.project_update Interface.invoked _ id (Interface.asyncCall_invoked ..) other
  refine ⟨once, record.calls.asyncCall taken, fun other => ?_, fun other => ?_, ?_⟩
  · rw [interfaces]
    exact (Interface.project_update Interface.fs _ id (Interface.asyncCall_fs ..) other).trans
      (record.bound other)
  · rw [apps, unchanged, record.apps]
  · rw [seen]
    exact (record.answered.invoke _).mono fun other => unchanged other ▸ List.prefix_rfl

/-- A server's step changes nothing that clients or applications see. -/
theorem keep (record : Record config fs start before)
    (once : System.OnceRecord config after.system)
    (calls : after.system.calls = before.system.calls)
    (interfaces : after.system.interfaces = before.system.interfaces)
    (apps : after.apps = before.apps) (seen : after.seen = before.seen) :
    Record config fs start after where
  once := once
  calls := ⟨by rw [seen, calls, record.calls.seen],
    record.calls.numbered.keep calls fun id => by rw [interfaces]⟩
  bound id := by rw [interfaces, record.bound]
  apps id := by rw [performed, interfaces, apps, record.apps, performed]
  answered := by
    rw [seen]
    exact record.answered.mono fun id => by rw [performed, performed, interfaces]

theorem apply (record : Record config fs start before)
    (taken : step config before (.apply id) = some after)
    (once : System.OnceRecord config after.system) : Record config fs start after := by
  obtain ⟨entry, next, calls, interfaces, apps, seen⟩ := step_apply taken
  obtain ⟨app, shown⟩ := apply_spec (record.bound id) start entry
  have own : after.performed id = before.performed id ++ [entry] := by
    rw [performed, interfaces, Function.update_self, Interface.apply_invoked, performed]
  have others : ∀ other, other ≠ id → after.performed other = before.performed other :=
    fun other apart => by rw [performed, interfaces, Function.update_of_ne apart, performed]
  have grown := record.answered.mono fun other =>
    show before.performed other <+: after.performed other from by
      by_cases same : other = id
      · rw [same, own]
        exact List.prefix_append _ _
      · rw [others other same]
  have nothingNew : invocations after.seen = invocations before.seen := by
    rcases shown with same | ⟨res, -, same⟩
    · rw [seen, same]
    · rw [seen, same]
      simp
  refine ⟨once, ⟨by rw [nothingNew, calls, record.calls.seen],
    record.calls.numbered.apply entry calls interfaces⟩, fun other => ?_, fun other => ?_, ?_⟩
  · rw [interfaces]
    exact (Interface.project_update Interface.fs _ id (Interface.apply_fs ..) other).trans
      (record.bound other)
  · rw [apps, app]
    by_cases same : other = id
    · subst same
      rw [Function.update_self, own, Linearizability.Object.after_concat, ← record.apps]
    · rw [Function.update_of_ne same, others other same, record.apps]
  · rcases shown with same | ⟨res, returned, same⟩
    · rw [seen, same]
      exact grown
    · -- everything performed so far has been handed over, so it was called for
      have handed : ∀ earlier ∈ after.performed id, .invoke earlier ∈ before.seen := by
        intro earlier member
        obtain ⟨-, waiting⟩ := System.nextEntry_eq_some next
        rw [own] at member
        rcases List.mem_append.mp member with old | new
        · exact record.invoked ((record.once.interfaces id).invoked.subset old)
        · rw [List.mem_singleton.mp new]
          exact record.invoked (List.mem_of_getElem? waiting)
      have found : (after.performed id)[(before.performed id).length]? = some entry := by
        rw [own, List.getElem?_concat_length]
      rw [seen, same]
      refine grown.respond found ?_ fun earlier member =>
        handed earlier (List.mem_of_mem_take member)
      rw [own, Linearizability.Object.answer_concat, ← record.apps, returned]

theorem step (record : Record config fs start before)
    (taken : Replicas.step config before action = some after)
    (steady : Steady config before action after) : Record config fs start after := by
  obtain ⟨system, moved, same⟩ := step_eq_some.mp taken
  have once : System.OnceRecord config after.system :=
    record.once.step (by rw [moved, same]) steady
  cases action with
  | asyncCall id opName args => exact record.asyncCall taken once
  | apply id => exact record.apply taken once
  | raft label =>
      obtain ⟨-, cluster, -, rfl⟩ := System.step_raft.mp moved
      subst same
      exact record.keep once rfl rfl rfl rfl
  | addLogReply msg server reply =>
      obtain ⟨-, rfl⟩ := System.step_addLogReply.mp moved
      subst same
      refine record.keep once ?_ ?_ rfl rfl
      · dsimp only
        split_ifs <;> rfl
      · dsimp only
        split_ifs <;> rfl

/-- What one server has performed begins what another has. -/
theorem alike (record : Record config fs start replicas) (left right : ServerId) :
    replicas.performed left <+: replicas.performed right ∨
      replicas.performed right <+: replicas.performed left := by
  obtain ⟨history, simulates, -⟩ := record.once.simulates
  have first := (record.once.interfaces left).invoked
  have second := (record.once.interfaces right).invoked
  rcases simulates.handedAlike left right with before | after
  · exact List.prefix_or_prefix_of_prefix (first.trans before) second
  · exact List.prefix_or_prefix_of_prefix first (second.trans after)

theorem replicates (record : Record config fs start replicas)
    (enough : ∀ id, replicas.made id ≤ UInt64.size) :
    Linearizability.Replicates (object fs start) config.srvList replicas.performed
      replicas.seen where
  alike := record.alike
  idle id absent := by
    have invoked := (record.once.interfaces id).invoked
    rw [record.once.record.outside id absent] at invoked
    exact List.prefix_nil.mp invoked
  distinct := record.once.atMostOnce.invoked
  invoked id entry member :=
    record.invoked ((record.once.interfaces id).invoked.subset member)
  once := record.calls.once enough
  answered := record.answered

end Record

end Replicas

end Quintet
