import QuintetRaft.Model.AddLogThreads
import QuintetRaft.Safety.CallNumbers

/-!
# Offering commands

A thread of `addLog` calls all servers in turn, over and over, until one of them has answered with
success; only commands that have been offered in this way are stored.  As long as no two calls make
the same command, what the threads make of the cluster is a run of the cluster with its clients.
-/

namespace Quintet

namespace AddLogThread

variable {srvList : List ServerId} {thread after : AddLogThread} {reply : Option AddLogReply}

theorem callRpcAddLog_eq_some :
    thread.callRpcAddLog = some after ↔
      (thread.waiting = false ∧ thread.returned = false) ∧ ∃ srv iter, thread.iter = srv :: iter ∧
        after = { thread with iter, called := thread.called ++ [srv], waiting := true } := by
  unfold callRpcAddLog
  split_ifs with busy
  · refine iff_of_false (by simp) ?_
    rintro ⟨⟨free, running⟩, -⟩
    simp [free, running] at busy
  · rw [not_or, Bool.not_eq_true, Bool.not_eq_true] at busy
    cases thread.iter <;> simp [busy, eq_comm (a := after)]

theorem finish_eq_some :
    thread.finish srvList reply = some after ↔
      thread.waiting = true ∧
        after =
          if reply.any AddLogReply.success then { thread with waiting := false, returned := true }
          else
            { thread with
              waiting := false
              iter := if thread.iter = [] then srvList else thread.iter } := by
  unfold finish
  rw [Option.ite_none_right_eq_some]
  refine and_congr_right fun _ => ?_
  split_ifs <;> exact Option.some_inj.trans eq_comm

/-- The thread goes through the list of servers, again and again. -/
structure InTurn (srvList : List ServerId) (thread : AddLogThread) : Prop where
  /-- The iterator goes on where the calls end. -/
  rounds : ∃ rounds, thread.called ++ thread.iter = (List.replicate rounds srvList).flatten
  /-- It is not used at the end of the list. -/
  inside : thread.waiting = false → thread.returned = false → thread.iter ≠ []
  /-- A thread that has returned does not wait. -/
  ended : thread.returned = true → thread.waiting = false

theorem inTurn_start (listed : srvList ≠ []) (msg : AddLogMessage) :
    InTurn srvList (start srvList msg) where
  rounds := ⟨1, by simp [start]⟩
  inside _ _ := listed
  ended := nofun

theorem InTurn.call (inTurn : thread.InTurn srvList)
    (taken : thread.callRpcAddLog = some after) : after.InTurn srvList := by
  obtain ⟨⟨-, running⟩, srv, iter, next, rfl⟩ := callRpcAddLog_eq_some.mp taken
  obtain ⟨rounds, same⟩ := inTurn.rounds
  refine ⟨⟨rounds, ?_⟩, nofun, fun ended => ?_⟩
  · rw [← same, next, List.append_assoc, List.singleton_append]
  · simp [running] at ended

theorem InTurn.finish (inTurn : thread.InTurn srvList) (listed : srvList ≠ [])
    (taken : thread.finish srvList reply = some after) : after.InTurn srvList := by
  obtain ⟨waiting, rfl⟩ := finish_eq_some.mp taken
  obtain ⟨rounds, same⟩ := inTurn.rounds
  split_ifs with success last
  · exact ⟨⟨rounds, same⟩, nofun, fun _ => rfl⟩
  · refine ⟨⟨rounds + 1, ?_⟩, fun _ _ => listed, fun _ => rfl⟩
    rw [List.replicate_succ', List.flatten_append, ← same, last]
    simp
  · exact ⟨⟨rounds, same⟩, fun _ _ => last, fun _ => rfl⟩

theorem getElem?_flatten_replicate (word : List ServerId) {rounds place : ℕ}
    (inside : place < rounds * word.length) :
    (List.replicate rounds word).flatten[place]? = word[place % word.length]? := by
  induction rounds generalizing place with
  | zero => simp at inside
  | succ rounds ih =>
      rw [List.replicate_succ, List.flatten_cons, List.getElem?_append]
      split_ifs with first
      · rw [Nat.mod_eq_of_lt first]
      · have later : place - word.length < rounds * word.length := by
          rw [Nat.succ_mul] at inside
          omega
        rw [ih later, ← Nat.mod_eq_sub_mod (Nat.le_of_not_lt first)]

/-- The calls go to one server after the other. -/
theorem InTurn.turns (inTurn : thread.InTurn srvList) {place : ℕ}
    (made : place < thread.called.length) :
    thread.called[place]? = srvList[place % srvList.length]? := by
  obtain ⟨rounds, same⟩ := inTurn.rounds
  have length := congrArg List.length same
  rw [List.length_append, List.length_flatten, List.map_replicate,
    List.sum_replicate_nat] at length
  rw [← getElem?_flatten_replicate srvList (by omega : place < rounds * srvList.length), ← same,
    List.getElem?_append_left made]

end AddLogThread

namespace Offering

variable {Any : Type} {config : ClusterConfig} {before after : Offering Any} {action : OfferAction}
  {id : ℕ} {thread changed : AddLogThread}

/-- The commands that have been offered to a server. -/
def offered (offering : Offering Any) : List AddLogMessage :=
  (offering.threads.filter (·.called ≠ [])).map AddLogThread.msg

theorem mem_offered {offering : Offering Any} {msg : AddLogMessage} :
    msg ∈ offering.offered ↔ ∃ server, offering.Offered server msg := by
  simp only [offered, List.mem_map, List.mem_filter, decide_eq_true_eq, Offered]
  constructor
  · rintro ⟨thread, ⟨member, some⟩, same⟩
    obtain ⟨server, called⟩ := List.exists_mem_of_ne_nil _ some
    exact ⟨server, thread, member, same, called⟩
  · rintro ⟨server, thread, member, same, called⟩
    exact ⟨thread, ⟨member, List.ne_nil_of_mem called⟩, same⟩

/-- The server called last has answered the command with success. -/
def Answered (cluster : Cluster) (thread : AddLogThread) : Prop :=
  ∃ server reply, thread.called.getLast? = some server ∧ reply.success = true ∧
    .addLogReply thread.msg reply ∈ (cluster server).sent

/-- What the threads have made of the cluster. -/
structure Sound (config : ClusterConfig) (offering : Offering Any) : Prop where
  /-- Threads have servers to call. -/
  listed : offering.threads ≠ [] → config.srvList ≠ []
  /-- They call them in turn. -/
  inTurn : ∀ thread ∈ offering.threads, thread.InTurn config.srvList
  /-- There is one for each call. -/
  calls : offering.system.calls = offering.threads.map AddLogThread.msg
  /-- The calls have numbers. -/
  numbered : offering.system.Numbered
  /-- They return when a command is answered with success. -/
  answered : ∀ thread ∈ offering.threads, thread.returned = true →
    Answered offering.system.cluster thread
  /-- The commands that have come back are theirs. -/
  returned : ∀ msg ∈ offering.system.returned, ∃ thread ∈ offering.threads,
    thread.msg = msg ∧ thread.returned = true
  /-- Nothing is stored that has not been offered. -/
  stored : Provenance offering.offered offering.system.cluster

theorem sound_init (fs : ServerId → ByteString → Option (ByteString → Any)) :
    Sound config (init fs) where
  listed some := absurd rfl some
  inTurn := by simp [init]
  calls := rfl
  numbered := System.numbered_init fs
  answered := by simp [init]
  returned := by simp [init, System.init]
  stored := provenance_init _

/-! ## One thread goes on -/

/-- What becomes of a thread when it goes on. -/
structure Goes (thread changed : AddLogThread) : Prop where
  /-- It offers the same command. -/
  msg : changed.msg = thread.msg
  /-- It forgets no call. -/
  called : thread.called <+: changed.called
  /-- It does not come back. -/
  returned : thread.returned = true → changed.returned = true

theorem goes_call (taken : thread.callRpcAddLog = some changed) : Goes thread changed := by
  obtain ⟨-, srv, iter, -, rfl⟩ := AddLogThread.callRpcAddLog_eq_some.mp taken
  exact ⟨rfl, List.prefix_append _ _, id⟩

theorem goes_finish {srvList : List ServerId} {reply : Option AddLogReply}
    (taken : thread.finish srvList reply = some changed) : Goes thread changed := by
  obtain ⟨-, rfl⟩ := AddLogThread.finish_eq_some.mp taken
  by_cases success : reply.any AddLogReply.success
  · rw [if_pos success]
    exact ⟨rfl, List.prefix_rfl, fun _ => rfl⟩
  · rw [if_neg success]
    exact ⟨rfl, List.prefix_rfl, id⟩

/-- Every thread is still there, or has gone on. -/
theorem exists_mem_set {property : AddLogThread → Prop}
    (present : before.threads[id]? = some thread)
    (kept : property thread → property changed)
    (holds : ∃ found ∈ before.threads, property found) :
    ∃ found ∈ before.threads.set id changed, property found := by
  obtain ⟨found, member, holds⟩ := holds
  obtain ⟨place, here⟩ := List.mem_iff_getElem?.mp member
  have inside : id < before.threads.length := (List.getElem?_eq_some_iff.mp present).1
  by_cases same : id = place
  · subst same
    obtain rfl : thread = found := Option.some.inj (present.symm.trans here)
    exact ⟨changed, List.mem_iff_getElem?.mpr ⟨id, List.getElem?_set_self inside⟩, kept holds⟩
  · refine ⟨found, List.mem_iff_getElem?.mpr ⟨place, ?_⟩, holds⟩
    rw [List.getElem?_set_ne same]
    exact here

theorem forall_mem_set {property : AddLogThread → Prop}
    (all : ∀ found ∈ before.threads, property found) (holds : property changed) :
    ∀ found ∈ before.threads.set id changed, property found := by
  intro found member
  rcases List.mem_or_eq_of_mem_set member with old | rfl
  · exact all found old
  · exact holds

/-- One thread has gone on, and the system has noted at most its return. -/
theorem Sound.set (sound : Sound config before) (present : before.threads[id]? = some thread)
    (goes : Goes thread changed) (inTurn : changed.InTurn config.srvList)
    {returned : List AddLogMessage}
    (answered : changed.returned = true → Answered before.system.cluster changed)
    (noted : ∀ msg ∈ returned, msg ∈ before.system.returned ∨
      msg = thread.msg ∧ changed.returned = true) :
    Sound config
      { system := { before.system with returned }, threads := before.threads.set id changed } := by
  have member := List.mem_of_getElem? present
  refine
    { listed := fun _ => sound.listed (List.ne_nil_of_mem member)
      inTurn := forall_mem_set sound.inTurn inTurn
      calls := ?_
      numbered := sound.numbered.keep rfl fun _ => rfl
      answered := forall_mem_set sound.answered answered
      returned := fun msg back => ?_
      stored := sound.stored.mono fun msg offered => ?_ }
  · have same : thread.msg = (before.threads.map AddLogThread.msg)[id]?.getD thread.msg := by
      simp [present]
    rw [List.map_set, goes.msg]
    refine sound.calls.trans (List.ext_getElem? fun place => ?_).symm
    rw [List.getElem?_set]
    split_ifs with here inside
    · subst here
      simp [present]
    · subst here
      exact (List.getElem?_eq_none (Nat.le_of_not_lt inside)).symm
    · rfl
  · rcases noted msg back with earlier | ⟨rfl, now⟩
    · exact exists_mem_set present
        (fun ⟨same, ended⟩ => ⟨goes.msg.trans same, goes.returned ended⟩)
        (sound.returned msg earlier)
    · have inside : id < before.threads.length := (List.getElem?_eq_some_iff.mp present).1
      exact ⟨changed, List.mem_iff_getElem?.mpr ⟨id, List.getElem?_set_self inside⟩, goes.msg, now⟩
  · obtain ⟨server, offered⟩ := mem_offered.mp offered
    refine mem_offered.mpr ⟨server, exists_mem_set present (fun ⟨same, called⟩ => ?_) offered⟩
    exact ⟨goes.msg.trans same, goes.called.subset called⟩

/-! ## Steps -/

/-- A client has made a call. -/
theorem Sound.asyncCall (sound : Sound config before) {server : ServerId} {opName args : ByteString}
    (taken : step config before (.asyncCall server opName args) = some after) :
    Sound config after := by
  obtain ⟨system, called, rfl⟩ := Option.map_eq_some_iff.mp taken
  obtain ⟨listed, rfl⟩ := System.step_asyncCall.mp called
  have some : config.srvList ≠ [] := List.ne_nil_of_mem listed
  refine
    { listed := fun _ => some
      inTurn := List.forall_mem_append.mpr
        ⟨sound.inTurn, by simpa using AddLogThread.inTurn_start some _⟩
      calls := ?_
      numbered := sound.numbered.asyncCall rfl rfl
      answered := List.forall_mem_append.mpr ⟨sound.answered, by simp [AddLogThread.start]⟩
      returned := fun msg back => ?_
      stored := sound.stored.mono fun msg offered => ?_ }
  · dsimp only
    rw [sound.calls, List.map_append]
    rfl
  · obtain ⟨thread, member, same⟩ := sound.returned msg back
    exact ⟨thread, List.mem_append_left _ member, same⟩
  · obtain ⟨server, thread, member, same⟩ := mem_offered.mp offered
    exact mem_offered.mpr ⟨server, thread, List.mem_append_left _ member, same⟩

/-- A server has taken a step. -/
theorem Sound.raft (sound : Sound config before) {label : ServerId × Event}
    (taken : step config before (.raft label) = some after) : Sound config after := by
  obtain ⟨offered, taken⟩ := Option.ite_none_right_eq_some.mp taken
  obtain ⟨system, stepped, rfl⟩ := Option.map_eq_some_iff.mp taken
  obtain ⟨-, cluster, moved, rfl⟩ := System.step_raft.mp stepped
  exact
    { sound with
      numbered := sound.numbered.keep rfl fun _ => rfl
      answered := fun thread member ended => by
        obtain ⟨server, reply, last, success, given⟩ := sound.answered thread member ended
        exact ⟨server, reply, last, success, Cluster.sent_mono moved given⟩
      stored := sound.stored.step moved fun msg asked =>
        mem_offered.mpr ⟨label.1, offered msg asked⟩ }

/-- A thread has got an answer. -/
theorem Sound.answer (sound : Sound config before) (present : before.threads[id]? = some thread)
    {reply : AddLogReply} (taken : before.answer config id reply thread = some after) :
    Sound config after := by
  obtain ⟨server, last, taken⟩ := Option.bind_eq_some_iff.mp taken
  obtain ⟨changed, moved, taken⟩ := Option.bind_eq_some_iff.mp taken
  obtain ⟨given, taken⟩ := Option.ite_none_right_eq_some.mp taken
  obtain rfl := Option.some.inj taken
  have member := List.mem_of_getElem? present
  have inTurn := sound.inTurn thread member
  have next := inTurn.finish (sound.listed (List.ne_nil_of_mem member)) moved
  obtain ⟨waiting, same⟩ := AddLogThread.finish_eq_some.mp moved
  rw [Option.any_some] at same
  by_cases success : reply.success
  · rw [if_pos success] at same ⊢
    refine sound.set present (goes_finish moved) next (fun _ => ?_) fun msg noted => ?_
    · subst same
      exact ⟨server, reply, last, success, given⟩
    · refine (List.mem_append.mp noted).imp_right fun new => ⟨List.mem_singleton.mp new, ?_⟩
      rw [same]
  · rw [if_neg success] at same ⊢
    refine sound.set present (goes_finish moved) next (fun ended => ?_) fun msg noted => .inl noted
    subst same
    have idle := inTurn.ended ended
    simp [waiting] at idle

theorem Sound.step (sound : Sound config before) (taken : step config before action = some after) :
    Sound config after := by
  cases action with
  | asyncCall server opName args => exact sound.asyncCall taken
  | raft label => exact sound.raft taken
  | apply server =>
      obtain ⟨system, stepped, rfl⟩ := Option.map_eq_some_iff.mp taken
      obtain ⟨entry, -, rfl⟩ := System.step_apply.mp stepped
      exact { sound with numbered := sound.numbered.apply entry rfl rfl }
  | call id =>
      obtain ⟨thread, present, taken⟩ := Option.bind_eq_some_iff.mp taken
      obtain ⟨changed, moved, taken⟩ := Option.bind_eq_some_iff.mp taken
      obtain rfl := Option.some.inj taken
      have inTurn := sound.inTurn thread (List.mem_of_getElem? present)
      refine sound.set present (goes_call moved) (inTurn.call moved) (fun ended => ?_)
        fun msg noted => .inl noted
      obtain ⟨⟨-, running⟩, srv, iter, -, rfl⟩ := AddLogThread.callRpcAddLog_eq_some.mp moved
      simp [running] at ended
  | reply id reply =>
      obtain ⟨thread, present, taken⟩ := Option.bind_eq_some_iff.mp taken
      exact sound.answer present taken
  | fail id =>
      obtain ⟨thread, present, taken⟩ := Option.bind_eq_some_iff.mp taken
      obtain ⟨changed, moved, taken⟩ := Option.bind_eq_some_iff.mp taken
      obtain rfl := Option.some.inj taken
      have member := List.mem_of_getElem? present
      have inTurn := sound.inTurn thread member
      have next := inTurn.finish (sound.listed (List.ne_nil_of_mem member)) moved
      refine sound.set present (goes_finish moved) next (fun ended => ?_)
        fun msg noted => .inl noted
      obtain ⟨waiting, rfl⟩ := AddLogThread.finish_eq_some.mp moved
      have idle := inTurn.ended ended
      simp [waiting] at idle

/-! ## The cluster with its clients -/

/-- A step is one of the cluster with its clients, or is not seen there. -/
theorem Sound.system_step (sound : Sound config before)
    (taken : Offering.step config before action = some after)
    (distinct : before.system.calls.Nodup) :
    after.system = before.system ∨
      ∃ action, System.step config before.system action = some after.system := by
  cases action with
  | asyncCall server opName args =>
      obtain ⟨system, called, rfl⟩ := Option.map_eq_some_iff.mp taken
      exact .inr ⟨_, called⟩
  | raft label =>
      obtain ⟨offered, taken⟩ := Option.ite_none_right_eq_some.mp taken
      obtain ⟨system, stepped, rfl⟩ := Option.map_eq_some_iff.mp taken
      exact .inr ⟨_, stepped⟩
  | apply server =>
      obtain ⟨system, stepped, rfl⟩ := Option.map_eq_some_iff.mp taken
      exact .inr ⟨_, stepped⟩
  | call id =>
      obtain ⟨thread, present, taken⟩ := Option.bind_eq_some_iff.mp taken
      obtain ⟨changed, moved, taken⟩ := Option.bind_eq_some_iff.mp taken
      obtain rfl := Option.some.inj taken
      exact .inl rfl
  | fail id =>
      obtain ⟨thread, present, taken⟩ := Option.bind_eq_some_iff.mp taken
      obtain ⟨changed, moved, taken⟩ := Option.bind_eq_some_iff.mp taken
      obtain rfl := Option.some.inj taken
      exact .inl rfl
  | reply id reply =>
      obtain ⟨thread, present, taken⟩ := Option.bind_eq_some_iff.mp taken
      obtain ⟨server, last, taken⟩ := Option.bind_eq_some_iff.mp taken
      obtain ⟨changed, moved, taken⟩ := Option.bind_eq_some_iff.mp taken
      obtain ⟨given, taken⟩ := Option.ite_none_right_eq_some.mp taken
      obtain rfl := Option.some.inj taken
      have member := List.mem_of_getElem? present
      have waiting := (AddLogThread.finish_eq_some.mp moved).1
      have called : thread.msg ∈ before.system.calls :=
        sound.calls ▸ List.mem_map_of_mem member
      have free : thread.msg ∉ before.system.returned := by
        intro back
        obtain ⟨other, there, same, ended⟩ := sound.returned _ back
        rw [sound.calls] at distinct
        obtain rfl := List.inj_on_of_nodup_map distinct there member same
        have idle := (sound.inTurn other there).ended ended
        simp [waiting] at idle
      exact .inr ⟨.addLogReply thread.msg server reply,
        System.step_addLogReply.mpr ⟨⟨called, free, given⟩, rfl⟩⟩

/-- Calls are not taken back. -/
theorem calls_prefix_step (taken : step config before action = some after) :
    before.system.calls <+: after.system.calls := by
  cases action with
  | asyncCall server opName args =>
      obtain ⟨system, called, rfl⟩ := Option.map_eq_some_iff.mp taken
      obtain ⟨-, rfl⟩ := System.step_asyncCall.mp called
      exact List.prefix_append _ _
  | raft label =>
      obtain ⟨offered, taken⟩ := Option.ite_none_right_eq_some.mp taken
      obtain ⟨system, stepped, rfl⟩ := Option.map_eq_some_iff.mp taken
      obtain ⟨-, cluster, -, rfl⟩ := System.step_raft.mp stepped
      exact List.prefix_rfl
  | apply server =>
      obtain ⟨system, stepped, rfl⟩ := Option.map_eq_some_iff.mp taken
      obtain ⟨entry, -, rfl⟩ := System.step_apply.mp stepped
      exact List.prefix_rfl
  | call id =>
      obtain ⟨thread, present, taken⟩ := Option.bind_eq_some_iff.mp taken
      obtain ⟨changed, moved, taken⟩ := Option.bind_eq_some_iff.mp taken
      obtain rfl := Option.some.inj taken
      exact List.prefix_rfl
  | fail id =>
      obtain ⟨thread, present, taken⟩ := Option.bind_eq_some_iff.mp taken
      obtain ⟨changed, moved, taken⟩ := Option.bind_eq_some_iff.mp taken
      obtain rfl := Option.some.inj taken
      exact List.prefix_rfl
  | reply id reply =>
      obtain ⟨thread, present, taken⟩ := Option.bind_eq_some_iff.mp taken
      obtain ⟨server, last, taken⟩ := Option.bind_eq_some_iff.mp taken
      obtain ⟨changed, moved, taken⟩ := Option.bind_eq_some_iff.mp taken
      obtain ⟨given, taken⟩ := Option.ite_none_right_eq_some.mp taken
      obtain rfl := Option.some.inj taken
      dsimp only
      split_ifs <;> exact List.prefix_rfl

theorem calls_prefix_run {actions : List OfferAction}
    (execution : Execution.run (step config) actions before = some after) :
    before.system.calls <+: after.system.calls := by
  have preserved := fun (earlier : Offering Any) action later
    (grown : before.system.calls <+: earlier.system.calls)
    (taken : step config earlier action = some later) => grown.trans (calls_prefix_step taken)
  exact Execution.invariant_of_run preserved List.prefix_rfl execution

/-- The calls made by then are as distinct as those made in the end. -/
theorem exists_run_system {actions : List OfferAction} (sound : Sound config before)
    (execution : Execution.run (step config) actions before = some after)
    (distinct : after.system.calls.Nodup) :
    ∃ actions, Execution.run (System.step config) actions before.system = some after.system := by
  induction actions generalizing before with
  | nil =>
      obtain rfl := Option.some.inj execution
      exact ⟨[], rfl⟩
  | cons action actions ih =>
      have whole := (calls_prefix_run execution).sublist.nodup distinct
      obtain ⟨middle, taken, later⟩ := Option.bind_eq_some_iff.mp execution
      obtain ⟨actions', follows⟩ := ih (sound.step taken) later
      rcases sound.system_step taken whole with same | ⟨action', taken'⟩
      · exact ⟨actions', same ▸ follows⟩
      · exact ⟨action' :: actions', (Execution.run_cons taken').trans follows⟩

/-! ## Runs -/

/-- What the threads of `addLog` can be relied on for. -/
structure Offers (config : ClusterConfig) (fs : ServerId → ByteString → Option (ByteString → Any))
    (final : Offering Any) : Prop where
  /-- A thread calls one server after the other and leaves none out. -/
  turns : ∀ thread ∈ final.threads, ∀ place < thread.called.length,
    thread.called[place]? = config.srvList[place % config.srvList.length]?
  /-- It has a server to call whenever it is at the top of its loop. -/
  inside : ∀ thread ∈ final.threads, thread.waiting = false → thread.returned = false →
    thread.callRpcAddLog.isSome = true
  /-- It returns only when the server that it has called last has answered with success. -/
  answered : ∀ thread ∈ final.threads, thread.returned = true →
    Answered final.system.cluster thread
  /-- Every entry of a log is a sentinel or stores a command that has been offered to a server. -/
  stored : ∀ id, ∀ entry ∈ (final.system.cluster id).server.state.entries, entry = {} ∨
    ∃ server msg, final.Offered server msg ∧ entry = Server.logEntry msg entry.term
  /-- As long as the indices of the promises suffice, a run of the cluster with its clients, in
  which servers handle the commands of calls at will, leads to the same state. -/
  explained : (∀ id, final.system.made id ≤ UInt64.size) →
    ∃ actions, Execution.run (System.step config) actions (System.init fs) = some final.system

/-- In every run of the threads a command is offered to all servers in turn until one of them has
stored it. -/
theorem offers_of_run {fs : ServerId → ByteString → Option (ByteString → Any)}
    {actions : List OfferAction} {final : Offering Any}
    (execution : Execution.run (step config) actions (init fs) = some final) :
    Offers config fs final := by
  have sound : Sound config final :=
    Execution.invariant_of_run (fun _ _ _ sound taken => sound.step taken) (sound_init fs) execution
  refine ⟨fun thread member place made => (sound.inTurn thread member).turns made,
    fun thread member free running => ?_, sound.answered, fun id entry member => ?_,
    fun enough => ?_⟩
  · obtain ⟨srv, iter, next⟩ :=
      List.exists_cons_of_ne_nil ((sound.inTurn thread member).inside free running)
    exact Option.isSome_iff_exists.mpr
      ⟨_, AddLogThread.callRpcAddLog_eq_some.mpr ⟨⟨free, running⟩, srv, iter, next, rfl⟩⟩
  · refine (sound.stored.logs id entry member).imp_right ?_
    rintro ⟨msg, offered, stored⟩
    obtain ⟨server, offered⟩ := mem_offered.mp offered
    exact ⟨server, msg, offered, stored⟩
  · have distinct := List.Nodup.of_map AddLogMessage.key (sound.numbered.distinct enough)
    exact exists_run_system (sound_init fs) execution distinct

/-- The second call of the client of server 1 is offered to server 1, which handles it only when it
leads; by then the thread has gone on, and it comes to server 1 again. -/
def secondRound : List OfferAction :=
  [.asyncCall (localServer 1) "add" "0", .asyncCall (localServer 1) "add" "1", .call 1, .fail 1] ++
    Cluster.firstElection.map .raft ++
    [.raft (localServer 1, .rpcAddLog Cluster.firstCommand),
      .raft (localServer 1, .addLogState), .call 1,
      .raft (localServer 2, .rpcAddLog Cluster.firstCommand), .reply 1 {}, .call 1, .fail 1,
      .call 1, .raft (localServer 1, .rpcAddLog Cluster.firstCommand),
      .reply 1 { success := true, leaderId := localServer 1 }]

/-- The thread of this call returns, and the other one has not begun. -/
theorem offers_second_round :
    ∃ final ∈ Execution.run (step trio) secondRound (init System.echo),
      final.threads.map AddLogThread.called =
          [[], [localServer 1, localServer 2, localServer 3, localServer 1]] ∧
        final.system.returned = [Cluster.firstCommand] ∧ Offers trio System.echo final := by
  have enabled : ∃ final ∈ Execution.run (step trio) secondRound (init System.echo),
      final.threads.map AddLogThread.called =
          [[], [localServer 1, localServer 2, localServer 3, localServer 1]] ∧
        final.system.returned = [Cluster.firstCommand] := by
    decide +kernel
  obtain ⟨final, execution, called, returned⟩ := enabled
  exact ⟨final, execution, called, returned, offers_of_run execution⟩

end Offering

end Quintet
