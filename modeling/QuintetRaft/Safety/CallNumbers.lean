import QuintetRaft.Safety.AtMostOnce

/-!
# The numbers of calls

The promises of one interface are numbered in the order of its calls, so that a server and a promise
name one call, as long as the indices suffice.
-/

namespace Quintet

namespace Interface

variable {Any : Type} (localId : ServerId) (entry : BasicLogEntry) (interface : Interface Any)

@[simp] theorem apply_curPrmIdx :
    (interface.apply localId entry).curPrmIdx = interface.curPrmIdx := by
  unfold apply setPromise
  dsimp only
  split
  · rfl
  · split_ifs <;> rfl

/-- What an update of one interface leaves alone is the same for all. -/
theorem project_update {β : Type} (project : Interface Any → β)
    (interfaces : ServerId → Interface Any) (id : ServerId) {changed : Interface Any}
    (same : project changed = project (interfaces id)) (other : ServerId) :
    project (Function.update interfaces id changed other) = project (interfaces other) := by
  by_cases now : other = id
  · subst now
    rw [Function.update_self, same]
  · rw [Function.update_of_ne now]

end Interface

namespace System

variable {Any : Type} {config : ClusterConfig} {before after : System Any} {id : ServerId}
  {opName args : ByteString}

/-- How many calls have been made at a server. -/
def made (system : System Any) (id : ServerId) : Nat := system.calls.countP (·.srvId = id)

/-- The calls have been numbered. -/
structure Numbered (system : System Any) : Prop where
  /-- The next promise has the number of calls as its index. -/
  current : ∀ id, (system.interfaces id).curPrmIdx = UInt64.ofNat (system.made id)
  /-- Earlier ones have smaller indices. -/
  used : ∀ msg ∈ system.calls, msg.prmIdx.toNat < system.made msg.srvId
  /-- As long as there are enough indices, no two calls have the same. -/
  distinct : (∀ id, system.made id ≤ UInt64.size) →
    (system.calls.map AddLogMessage.key).Nodup

theorem numbered_init (fs : ServerId → ByteString → Option (ByteString → Any)) :
    Numbered (init fs) :=
  ⟨fun _ => rfl, by simp [init], fun _ => by simp [init]⟩

/-- A call gets the next number. -/
theorem Numbered.asyncCall (numbered : Numbered before)
    (calls : after.calls =
      before.calls ++ [((before.interfaces id).asyncCall id opName args).2])
    (interfaces : after.interfaces = Function.update before.interfaces id
      ((before.interfaces id).asyncCall id opName args).1) : Numbered after := by
  set msg := ((before.interfaces id).asyncCall id opName args).2 with called
  have index : msg.prmIdx = UInt64.ofNat (before.made id) := numbered.current id
  have server : msg.srvId = id := rfl
  have counted : ∀ other, after.made other = before.made other + if id = other then 1 else 0 :=
    fun other => by simp [made, calls, server]
  refine ⟨fun other => ?_, fun msg' member => ?_, fun enough => ?_⟩
  · rw [counted, interfaces]
    by_cases same : other = id
    · subst same
      simp [Interface.asyncCall, numbered.current, UInt64.ofNat_add]
    · rw [Function.update_of_ne same, if_neg (Ne.symm same), Nat.add_zero, numbered.current]
  · rw [counted]
    rw [calls] at member
    rcases List.mem_append.mp member with old | new
    · exact (numbered.used msg' old).trans_le (Nat.le_add_right _ _)
    · obtain rfl := List.mem_singleton.mp new
      rw [index, UInt64.toNat_ofNat', server, if_pos rfl]
      exact Nat.lt_succ_of_le (Nat.mod_le _ _)
  · -- the indices of earlier calls are smaller, and the new one has not wrapped around
    have room : before.made id < UInt64.size := by
      have upTo := enough id
      rwa [counted, if_pos rfl, Nat.succ_le_iff] at upTo
    have earlier := numbered.distinct fun other =>
      (Nat.le_add_right _ _).trans ((counted other).ge.trans (enough other))
    rw [calls, List.map_append, List.nodup_append]
    refine ⟨earlier, List.nodup_singleton _, ?_⟩
    rintro key old other single rfl
    obtain ⟨msg', member, same⟩ := List.mem_map.mp old
    rw [List.map_singleton, List.mem_singleton] at single
    obtain ⟨sameServer, promise⟩ := Prod.mk.inj (same.trans single)
    have used := numbered.used msg' member
    rw [sameServer, server, promise, index, UInt64.toNat_ofNat_of_lt' room] at used
    exact Nat.lt_irrefl _ used

/-- Other steps make no calls. -/
theorem Numbered.keep (numbered : Numbered before) (calls : after.calls = before.calls)
    (current : ∀ id, (after.interfaces id).curPrmIdx = (before.interfaces id).curPrmIdx) :
    Numbered after := by
  have counted : after.made = before.made := funext fun id => by rw [made, made, calls]
  refine ⟨fun id => ?_, fun msg member => ?_, ?_⟩
  · rw [current, counted, numbered.current]
  · rw [counted]
    exact numbered.used msg (calls ▸ member)
  · rw [counted, calls]
    exact numbered.distinct

/-- Handling an entry makes no call. -/
theorem Numbered.apply (numbered : Numbered before) (entry : BasicLogEntry)
    (calls : after.calls = before.calls)
    (interfaces : after.interfaces = Function.update before.interfaces id
      ((before.interfaces id).apply id entry)) : Numbered after :=
  numbered.keep calls fun other => by
    rw [interfaces]
    exact Interface.project_update Interface.curPrmIdx _ id (Interface.apply_curPrmIdx ..) other

end System

end Quintet
