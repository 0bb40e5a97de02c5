import QuintetRaft.Library.Traces
import QuintetRaft.Model.Outputs
import QuintetRaft.Model.Threads
import QuintetRaft.Model.WireCluster
import QuintetRaft.Safety.Election
import QuintetRaft.Safety.RemoteCalls

/-!
# Servers that exchange bytes

As long as all messages are fit for the network and their strings are UTF-8, the servers of a
cluster on the wire go through exactly the states that servers go through which exchange messages.
-/

namespace Quintet

open Rpc WireFormat

/-! ## Requests and replies -/

section Requests

variable {cluster : Cluster} {self target : ServerId} {msg : PeerRequest} {reply : Reply}
  {event : Event} {output : Output}

theorem delivered_handled :
    cluster.Delivered self msg.handled ↔ msg.output self ∈ (cluster msg.sender).sent := by
  cases msg <;> exact Iff.rfl

theorem delivered_answered :
    cluster.Delivered self (msg.answered target reply) ↔
      msg.answer reply ∈ (cluster target).sent := by
  cases msg <;> exact Iff.rfl

theorem delivered_of_local (quiet : event.Local) : cluster.Delivered self event := by
  cases event <;> trivial

theorem request_eq_some : output.request = some (target, msg) ↔ output = msg.output target := by
  cases output <;> cases msg <;> simp [Output.request, PeerRequest.output]

theorem reply_eq_some : output.reply = some (msg, reply) ↔ output = msg.answer reply := by
  cases output <;> cases msg <;> simp [Output.reply, PeerRequest.answer]

theorem handled_injective : Function.Injective PeerRequest.handled := by
  intro left right same
  cases left <;> cases right <;> simp_all [PeerRequest.handled]

theorem handled_ne_answered {other : PeerRequest} :
    msg.answered target reply ≠ other.handled := by
  cases msg <;> cases other <;> simp [PeerRequest.answered, PeerRequest.handled]

theorem handled_not_local : ¬ msg.handled.Local := by
  cases msg <;> exact id

/-- An event is local, or handles a request, or brings a reply. -/
theorem event_cases (event : Event) :
    event.Local ∨ (∃ msg : PeerRequest, event = msg.handled) ∨
      ∃ (target : ServerId) (msg : PeerRequest) (reply : Reply),
        event = msg.answered target reply := by
  cases event with
  | rpcRequestVote msg => exact .inr (.inl ⟨.requestVote msg, rfl⟩)
  | rpcAppendEntries msg => exact .inr (.inl ⟨.appendEntries msg, rfl⟩)
  | receiveVote target msg reply => exact .inr (.inr ⟨target, .requestVote msg, reply, rfl⟩)
  | receiveAppendReply target msg reply =>
      exact .inr (.inr ⟨target, .appendEntries msg, reply, rfl⟩)
  | _ => exact .inl trivial

end Requests

namespace Server

variable {info : ServerInfo} {srv : Server} {event : Event} {result : Server × List Output}

theorem createAppendEntriesMessage_leaderId {start : ℕ} {msg : AppendEntriesMessage}
    (built : srv.createAppendEntriesMessage info start = some msg) :
    msg.leaderId = info.localId := by
  obtain ⟨_, -, rfl⟩ := Option.map_eq_some_iff.mp built
  rfl

/-- A server asks under its own name. -/
theorem sender_of_step (taken : step info srv event = some result) {target : ServerId}
    {msg : PeerRequest} (member : msg.output target ∈ result.2) : msg.sender = info.localId := by
  have emitted := step_emits taken member
  cases msg with
  | appendEntries msg =>
      obtain ⟨-, node, _, _, -, -, built⟩ := emitted
      exact createAppendEntriesMessage_leaderId built
  | requestVote msg =>
      obtain ⟨-, -, -, rfl⟩ := emitted
      rfl

/-- A server answers the request that it handles. -/
theorem handled_of_step (taken : step info srv event = some result) {msg : PeerRequest}
    {reply : Reply} (member : msg.answer reply ∈ result.2) : event = msg.handled := by
  have emitted := step_emits taken member
  cases msg with
  | appendEntries msg => exact emitted.1
  | requestVote msg => exact emitted.1

/-- The threads of a server wait for answers to messages under its own name. -/
structure Signs (id : ServerId) (srv : Server) : Prop where
  /-- The threads of the candidate. -/
  requests : ∀ request ∈ srv.candidate.requests, request.2.candidateId = id
  /-- The threads of the leader. -/
  threads : ∀ target node oldMatchIdx retryTimes msg,
    srv.leader.followerNodes target = some node →
      node.appendingThread = .sending oldMatchIdx retryTimes msg → msg.leaderId = id

theorem signs_init (id : ServerId) : Signs id {} where
  requests := by simp
  threads := by simp

theorem Signs.leave {id : ServerId} (signs : srv.Signs id) : srv.leave.Signs id := by
  unfold Server.leave
  split
  · exact ⟨by simp [candidateLeave], signs.threads⟩
  · exact ⟨signs.requests, by simp [leaderLeave]⟩
  · exact signs

theorem Signs.requests_step (signs : srv.Signs info.localId)
    (taken : step info srv event = some result) :
    ∀ request ∈ result.1.candidate.requests, request.2.candidateId = info.localId := by
  cases event with
  | transform =>
      obtain ⟨target, queued, rest, -, -, rfl⟩ := step_transform.mp taken
      have waits : Signs info.localId { srv with events := rest } := { signs with }
      have left := waits.leave.requests
      rw [transform_candidate]
      split_ifs with stands
      · intro request member
        rcases List.mem_append.mp member with earlier | asked
        · exact left request earlier
        · obtain ⟨other, -, rfl⟩ := List.mem_map.mp asked
          rfl
      · exact left
  | receiveVote target msg reply =>
      obtain ⟨-, rfl⟩ := step_receiveVote.mp taken
      rw [receiveVote_candidate]
      exact fun request member => signs.requests request (List.mem_of_mem_erase member)
  | _ =>
      rw [(step_sameRole taken trivial).candidate]
      exact signs.requests

theorem Signs.threads_transform {target : ServerIdentityNo} (signs : srv.Signs info.localId)
    (name : ServerId) (node : FollowerNode) (oldMatchIdx retryTimes : ℕ)
    (msg : AppendEntriesMessage)
    (known : (srv.transform info target).1.leader.followerNodes name = some node)
    (thread : node.appendingThread = .sending oldMatchIdx retryTimes msg) :
    msg.leaderId = info.localId := by
  have left := signs.leave.threads name
  rw [transform_leader] at known
  split_ifs at known with leads
  · simp only [leaderInit] at known
    split_ifs at known with other
    · cases old : srv.leave.leader.followerNodes name with
      | none =>
          rw [old, Option.getD_none, Option.some.injEq] at known
          subst known
          simp at thread
      | some before =>
          rw [old, Option.getD_some, Option.some.injEq] at known
          exact left before oldMatchIdx retryTimes msg old (known ▸ thread)
    · exact left node oldMatchIdx retryTimes msg known thread
  · exact left node oldMatchIdx retryTimes msg known thread

theorem Signs.threads_step (signs : srv.Signs info.localId)
    (taken : step info srv event = some result) (kept : event ≠ .transform) (name : ServerId)
    (node : FollowerNode) (oldMatchIdx retryTimes : ℕ) (msg : AppendEntriesMessage)
    (known : result.1.leader.followerNodes name = some node)
    (thread : node.appendingThread = .sending oldMatchIdx retryTimes msg) :
    msg.leaderId = info.localId := by
  have earlier := signs.threads name node oldMatchIdx retryTimes msg
  -- the node is an old one, or the one that the step has changed
  have update : ∀ other changed,
      (changed.appendingThread = .sending oldMatchIdx retryTimes msg →
        msg.leaderId = info.localId) →
      result.1.leader.followerNodes =
        Function.update srv.leader.followerNodes other (some changed) →
      msg.leaderId = info.localId := by
    intro other changed signed same
    rw [same] at known
    by_cases moved : name = other
    · subst moved
      rw [Function.update_self, Option.some.injEq] at known
      exact signed (known ▸ thread)
    · rw [Function.update_of_ne moved] at known
      exact earlier known thread
  cases step_books taken kept with
  | still same => exact earlier (same ▸ known) thread
  | adds added adding idle stored same => exact earlier (by simpa [same] using known) thread
  | added added adding suspended same => exact earlier (by simpa [same] using known) thread
  | moves other before changed present moved same =>
      refine update other changed (fun sends => ?_) (by rw [same])
      exact createAppendEntriesMessage_leaderId (moved.sending sends).2
  | counts other before idx replicateNum counting present counts counter same =>
      exact update other { before with appendingThread := .counting (idx + 1) } (by simp)
        (by rw [same])

theorem Signs.step (signs : srv.Signs info.localId)
    (taken : Server.step info srv event = some result) : result.1.Signs info.localId where
  requests := signs.requests_step taken
  threads := by
    by_cases moves : event = .transform
    · subst moves
      obtain ⟨target, queued, rest, -, -, rfl⟩ := step_transform.mp taken
      have waits : Signs info.localId { srv with events := rest } := { signs with }
      exact waits.threads_transform
    · exact signs.threads_step taken moves

/-- The thread that gets a reply has asked under the name of its server. -/
theorem Signs.sender (signs : srv.Signs info.localId) {target : ServerId} {msg : PeerRequest}
    {reply : Reply} (taken : Server.step info srv (msg.answered target reply) = some result) :
    msg.sender = info.localId := by
  cases msg with
  | appendEntries msg =>
      obtain ⟨node, oldMatchIdx, retryTimes, known, thread, -⟩ := step_receiveAppendReply.mp taken
      exact signs.threads target node oldMatchIdx retryTimes msg known thread
  | requestVote msg =>
      obtain ⟨asked, -⟩ := step_receiveVote.mp taken
      exact signs.requests _ asked

end Server

/-! ## What fits -/

/-- All strings of a request are in UTF-8. -/
def Rpc.PeerRequest.IsText : PeerRequest → Prop
  | .appendEntries msg => msg.IsText
  | .requestVote msg => msg.IsText

/-- What a server gives out is fit for the network, and can be read there. -/
def FitOutput (runtime : Runtime) : Output → Prop
  | .requestVote _ msg =>
      FitRequest runtime (.requestVote msg) ∧ PeerRequest.IsText (.requestVote msg)
  | .appendEntries _ msg =>
      FitRequest runtime (.appendEntries msg) ∧ PeerRequest.IsText (.appendEntries msg)
  | .voteReply _ reply | .appendReply _ reply => FitReply runtime reply
  | _ => True

instance (msg : AppendEntriesMessage) : Decidable msg.Fits :=
  decidable_of_iff (msg.term < termModulus ∧ msg.prevLogIdx < termModulus ∧
      msg.prevLogTerm < termModulus ∧ (∀ entry ∈ msg.logEntries, entry.term < termModulus) ∧
      msg.commitIdx < termModulus)
    ⟨fun ⟨term, idx, prev, entries, commit⟩ => ⟨term, idx, prev, entries, commit⟩,
      fun fits => ⟨fits.1, fits.2, fits.3, fits.4, fits.5⟩⟩

instance (msg : RequestVoteMessage) : Decidable msg.Fits :=
  decidable_of_iff (msg.term < termModulus ∧ msg.lastLogIdx < termModulus ∧
      msg.lastLogTerm < termModulus)
    ⟨fun ⟨term, idx, last⟩ => ⟨term, idx, last⟩, fun fits => ⟨fits.1, fits.2, fits.3⟩⟩

instance (runtime : Runtime) : (request : PeerRequest) → Decidable (FitRequest runtime request)
  | .appendEntries _ | .requestVote _ => inferInstanceAs (Decidable (_ ∧ _))

instance : (request : PeerRequest) → Decidable request.IsText
  | .appendEntries msg => inferInstanceAs (Decidable msg.IsText)
  | .requestVote msg => inferInstanceAs (Decidable msg.IsText)

instance (runtime : Runtime) (reply : Reply) : Decidable (FitReply runtime reply) :=
  inferInstanceAs (Decidable (_ < _ ∧ _))

instance (runtime : Runtime) : (output : Output) → Decidable (FitOutput runtime output)
  | .requestVote _ _ | .appendEntries _ _ => inferInstanceAs (Decidable (_ ∧ _))
  | .voteReply _ reply | .appendReply _ reply =>
      inferInstanceAs (Decidable (FitReply runtime reply))
  | .addLogReply _ _ | .candidacy _ | .apply _ => .isTrue trivial

/-- All that servers have sent and answered is fit for the network, and can be read there. -/
def Cluster.Fit (runtime : Runtime) (config : ClusterConfig) (cluster : Cluster) : Prop :=
  ∀ id ∈ config.srvList, ∀ output ∈ (cluster id).sent, FitOutput runtime output

instance (runtime : Runtime) (config : ClusterConfig) (cluster : Cluster) :
    Decidable (cluster.Fit runtime config) :=
  inferInstanceAs (Decidable (∀ _ ∈ _, ∀ _ ∈ _, _))

section Fit

variable {runtime : Runtime} {msg : PeerRequest} {reply : Reply}

theorem fitOutput_output {target : ServerId} :
    FitOutput runtime (msg.output target) ↔ FitRequest runtime msg ∧ msg.IsText := by
  cases msg <;> exact Iff.rfl

theorem fitOutput_answer : FitOutput runtime (msg.answer reply) ↔ FitReply runtime reply := by
  cases msg <;> exact Iff.rfl

/-- The service reads what the stub has written. -/
theorem read_send (lawful : runtime.Lawful) (fit : FitRequest runtime msg) (text : msg.IsText) :
    ((peers runtime).send msg).read runtime = some msg := by
  cases msg with
  | appendEntries msg =>
      have parsed := (PbAppendEntriesMessage.fielded lawful).lawful.parse_serialize fit.2
        (whole_convertAppendEntriesMessage msg)
        ((valid_convertAppendEntriesMessage lawful).mpr text)
      exact Option.map_eq_some_iff.mpr ⟨_, parsed,
        congrArg PeerRequest.appendEntries (convertAppendEntriesMessage_back.mpr fit.1)⟩
  | requestVote msg =>
      have parsed := (PbRequestVoteMessage.fielded lawful).lawful.parse_serialize fit.2
        (whole_convertRequestVoteMessage msg) ((valid_convertRequestVoteMessage lawful).mpr text)
      exact Option.map_eq_some_iff.mpr ⟨_, parsed,
        congrArg PeerRequest.requestVote (convertRequestVoteMessage_back.mpr fit.1)⟩

end Fit

/-! ## What is on the network -/

namespace WireCluster

variable {runtime : Runtime} {config : ClusterConfig} {before after wire : WireCluster}
  {self : ServerId} {event : Event} {serving : Option ℕ} {label : WireEvent}

theorem perform_eq_some :
    perform runtime config self event serving before = some after ↔
      self ∈ config.srvList ∧ ∃ result,
        (before.nodes self).server.step (config.info self) event = some result ∧
          after =
            { nodes := Function.update before.nodes self
                { server := result.1, sent := (before.nodes self).sent ++ result.2 }
              calls := before.calls ++ result.2.filterMap (callOf runtime self)
              replies := before.replies ++ result.2.filterMap (replyOf runtime serving) } := by
  rw [perform, Option.ite_none_right_eq_some, Option.map_eq_some_iff]
  exact and_congr_right fun _ => exists_congr fun _ => and_congr_right fun _ => eq_comm

theorem callOf_eq_some {output : Output} {call : PeerCall} :
    callOf runtime self output = some call ↔
      call.caller = self ∧ call.bytes = (peers runtime).send call.msg ∧
        output = call.msg.output call.target := by
  rw [← request_eq_some, callOf, Option.map_eq_some_iff]
  constructor
  · rintro ⟨⟨target, msg⟩, asked, rfl⟩
    exact ⟨rfl, rfl, asked⟩
  · obtain ⟨caller, target, msg, bytes⟩ := call
    dsimp only
    rintro ⟨rfl, rfl, asked⟩
    exact ⟨(target, msg), asked, rfl⟩

theorem replyOf_eq_some {output : Output} {number : ℕ} {bytes : Bytes} :
    replyOf runtime serving output = some ⟨number, bytes⟩ ↔
      serving = some number ∧ ∃ msg reply, output = PeerRequest.answer reply msg ∧
        bytes = writeReply runtime reply := by
  simp only [← reply_eq_some, replyOf, Option.bind_eq_some_iff, Option.map_eq_some_iff]
  constructor
  · rintro ⟨call, busy, ⟨msg, reply⟩, given, same⟩
    obtain ⟨rfl, rfl⟩ := PeerReply.mk.inj same
    exact ⟨busy, msg, reply, given, rfl⟩
  · rintro ⟨busy, msg, reply, given, rfl⟩
    exact ⟨number, busy, (msg, reply), given, rfl⟩

/-- The calls and replies on the network are those that the servers have given out. -/
structure Faithful (runtime : Runtime) (wire : WireCluster) : Prop where
  /-- Servers ask under their own names. -/
  senders : ∀ id target msg, PeerRequest.output target msg ∈ (wire.nodes id).sent → msg.sender = id
  /-- Their threads know that. -/
  signs : ∀ id, (wire.nodes id).server.Signs id
  /-- What they give out is fit for the network, and can be read there. -/
  fit : ∀ id, ∀ output ∈ (wire.nodes id).sent, FitOutput runtime output
  /-- A call is made for a request, and written by the stub. -/
  calls : ∀ call ∈ wire.calls, call.bytes = (peers runtime).send call.msg ∧
    call.msg.output call.target ∈ (wire.nodes call.caller).sent
  /-- A call is made for every request. -/
  sent : ∀ id target msg, PeerRequest.output target msg ∈ (wire.nodes id).sent →
    ∃ call ∈ wire.calls, call.caller = id ∧ call.target = target ∧ call.msg = msg
  /-- A reply on the network has been given to the call. -/
  replies : ∀ number bytes, ⟨number, bytes⟩ ∈ wire.replies → ∃ call reply,
    wire.calls[number]? = some call ∧ bytes = writeReply runtime reply ∧
      call.msg.answer reply ∈ (wire.nodes call.target).sent
  /-- A reply that is given is on the network. -/
  given : ∀ id msg reply, PeerRequest.answer reply msg ∈ (wire.nodes id).sent →
    ∃ number call, wire.calls[number]? = some call ∧ call.caller = msg.sender ∧
      call.target = id ∧ call.msg = msg ∧ ⟨number, writeReply runtime reply⟩ ∈ wire.replies

theorem faithful_init : Faithful runtime {} where
  senders _ _ _ member := by simp [Cluster.init] at member
  signs := Server.signs_init
  fit _ _ member := by simp [Cluster.init] at member
  calls := by simp
  sent _ _ _ member := by simp [Cluster.init] at member
  replies := by simp
  given _ _ _ member := by simp [Cluster.init] at member

/-- A server handles the request of the call it serves, or does not handle any. -/
def Serves (wire : WireCluster) (self : ServerId) (event : Event) : Option ℕ → Prop
  | some number => ∃ call, wire.calls[number]? = some call ∧ call.target = self ∧
      event = call.msg.handled
  | none => ∀ msg : PeerRequest, event ≠ msg.handled

section Perform

variable {result : Server × List Output}

/-- What is given out after a step was given out before, or is given out in the step. -/
theorem mem_sent {id : ServerId} {output : Output} :
    output ∈ (Function.update before.nodes self
        { server := result.1, sent := (before.nodes self).sent ++ result.2 } id).sent ↔
      output ∈ (before.nodes id).sent ∨ id = self ∧ output ∈ result.2 := by
  by_cases same : id = self
  · subst same
    simp
  · simp [same]

/-- The calls that a step makes. -/
theorem mem_calls {call : PeerCall} :
    call ∈ before.calls ++ result.2.filterMap (callOf runtime self) ↔
      call ∈ before.calls ∨ call.caller = self ∧ call.bytes = (peers runtime).send call.msg ∧
        call.msg.output call.target ∈ result.2 := by
  rw [List.mem_append, List.mem_filterMap]
  refine or_congr_right ⟨?_, ?_⟩
  · rintro ⟨output, member, made⟩
    obtain ⟨caller, bytes, rfl⟩ := callOf_eq_some.mp made
    exact ⟨caller, bytes, member⟩
  · rintro ⟨caller, bytes, member⟩
    exact ⟨_, member, callOf_eq_some.mpr ⟨caller, bytes, rfl⟩⟩

/-- The replies that a step gives. -/
theorem mem_replies {number : ℕ} {bytes : Bytes} :
    ⟨number, bytes⟩ ∈ before.replies ++ result.2.filterMap (replyOf runtime serving) ↔
      ⟨number, bytes⟩ ∈ before.replies ∨ serving = some number ∧ ∃ msg reply,
        PeerRequest.answer reply msg ∈ result.2 ∧ bytes = writeReply runtime reply := by
  rw [List.mem_append, List.mem_filterMap]
  refine or_congr_right ⟨?_, ?_⟩
  · rintro ⟨output, member, made⟩
    obtain ⟨busy, msg, reply, rfl, written⟩ := replyOf_eq_some.mp made
    exact ⟨busy, msg, reply, member, written⟩
  · rintro ⟨busy, msg, reply, member, written⟩
    exact ⟨_, member, replyOf_eq_some.mpr ⟨busy, msg, reply, rfl, written⟩⟩

/-- The number of a call stays. -/
theorem getElem?_calls {number : ℕ} {call : PeerCall}
    (made : before.calls[number]? = some call) (more : List PeerCall) :
    (before.calls ++ more)[number]? = some call :=
  (List.getElem?_append_left (List.getElem?_eq_some_iff.mp made).1).trans made

theorem Faithful.perform (faithful : Faithful runtime before)
    (taken : perform runtime config self event serving before = some after)
    (serves : before.Serves self event serving)
    (fit : after.nodes.Fit runtime config) : Faithful runtime after := by
  obtain ⟨listed, result, moved, rfl⟩ := perform_eq_some.mp taken
  refine
    { senders := fun id target msg member => ?_
      signs := fun id => ?_
      fit := fun id output member => ?_
      calls := fun call member => ?_
      sent := fun id target msg member => ?_
      replies := fun number bytes member => ?_
      given := fun id msg reply member => ?_ }
  · rcases mem_sent.mp member with earlier | ⟨rfl, now⟩
    · exact faithful.senders id target msg earlier
    · exact Server.sender_of_step moved now
  · by_cases same : id = self
    · subst same
      dsimp only
      rw [Function.update_self]
      exact Server.Signs.step (faithful.signs id) moved
    · simpa [same] using faithful.signs id
  · rcases mem_sent.mp member with earlier | ⟨rfl, now⟩
    · exact faithful.fit id output earlier
    · exact fit id listed output (mem_sent.mpr (.inr ⟨rfl, now⟩))
  · rcases mem_calls.mp member with earlier | ⟨caller, written, now⟩
    · exact (faithful.calls call earlier).imp_right fun asked => mem_sent.mpr (.inl asked)
    · exact ⟨written, mem_sent.mpr (.inr ⟨caller, now⟩)⟩
  · rcases mem_sent.mp member with earlier | ⟨rfl, now⟩
    · obtain ⟨call, made, same⟩ := faithful.sent id target msg earlier
      exact ⟨call, mem_calls.mpr (.inl made), same⟩
    · exact ⟨⟨id, target, msg, (peers runtime).send msg⟩,
        mem_calls.mpr (.inr ⟨rfl, rfl, now⟩), rfl, rfl, rfl⟩
  · rcases mem_replies.mp member with earlier | ⟨rfl, msg, reply, now, written⟩
    · obtain ⟨call, reply, made, written, answered⟩ := faithful.replies number bytes earlier
      exact ⟨call, reply, getElem?_calls made _, written, mem_sent.mpr (.inl answered)⟩
    · obtain ⟨call, made, target, same⟩ := serves
      obtain rfl : call.msg = msg :=
        handled_injective (same.symm.trans (Server.handled_of_step moved now))
      exact ⟨call, reply, getElem?_calls made _, written, mem_sent.mpr (.inr ⟨target, now⟩)⟩
  · rcases mem_sent.mp member with earlier | ⟨rfl, now⟩
    · obtain ⟨number, call, made, caller, target, same, written⟩ :=
        faithful.given id msg reply earlier
      exact ⟨number, call, getElem?_calls made _, caller, target, same,
        mem_replies.mpr (.inl written)⟩
    · have handles := Server.handled_of_step moved now
      cases serving with
      | none => exact absurd handles (serves msg)
      | some number =>
          obtain ⟨call, made, target, same⟩ := serves
          obtain rfl : call.msg = msg := handled_injective (same.symm.trans handles)
          have asked := (faithful.calls call (List.mem_of_getElem? made)).2
          exact ⟨number, call, getElem?_calls made _, (faithful.senders _ _ _ asked).symm, target,
            rfl, mem_replies.mpr (.inr ⟨rfl, call.msg, reply, now, rfl⟩)⟩

/-- Bytes apart, the step is one of the cluster. -/
theorem step_of_perform (taken : perform runtime config self event serving before = some after)
    (delivered : before.nodes.Delivered self event) :
    Cluster.step config before.nodes (self, event) = some after.nodes := by
  obtain ⟨listed, result, moved, rfl⟩ := perform_eq_some.mp taken
  exact Cluster.step_eq_some.mpr ⟨listed, delivered, result, moved, rfl⟩

variable (runtime serving) in
/-- A step of the cluster can be performed. -/
theorem exists_perform {final : Cluster}
    (taken : Cluster.step config before.nodes (self, event) = some final) :
    ∃ after, perform runtime config self event serving before = some after ∧
      after.nodes = final := by
  obtain ⟨listed, -, result, moved, rfl⟩ := Cluster.step_eq_some.mp taken
  exact ⟨_, perform_eq_some.mpr ⟨listed, result, moved, rfl⟩, rfl⟩

end Perform

/-! ## Steps -/

section Steps

variable (lawful : runtime.Lawful)

include lawful

/-- The reply that the caller reads is the one that was given. -/
theorem receive_writeReply {reply : Reply} (fit : FitReply runtime reply) :
    ∃ pb, (peers runtime).receive (writeReply runtime reply) = some pb ∧
      Quintet.convertReply pb = reply :=
  receive_reply lawful fit

/-- A step on the wire is one of the cluster. -/
theorem Faithful.forth (faithful : Faithful runtime before)
    (taken : step runtime config before label = some after) (fit : after.nodes.Fit runtime config) :
    Faithful runtime after ∧
      ∃ event, Cluster.step config before.nodes event = some after.nodes := by
  cases label with
  | act self event =>
      obtain ⟨quiet, performed⟩ := Option.ite_none_right_eq_some.mp taken
      have serves : before.Serves self event none := fun msg same =>
        handled_not_local (same ▸ quiet)
      exact ⟨faithful.perform performed serves fit, _,
        step_of_perform performed (delivered_of_local quiet)⟩
  | handle number =>
      obtain ⟨call, made, taken⟩ := Option.bind_eq_some_iff.mp taken
      obtain ⟨msg, read, performed⟩ := Option.bind_eq_some_iff.mp taken
      obtain ⟨written, asked⟩ := faithful.calls call (List.mem_of_getElem? made)
      obtain ⟨fits, text⟩ := fitOutput_output.mp (faithful.fit _ _ asked)
      have arrives := read_send lawful fits text
      obtain rfl : call.msg = msg := by
        rw [written, arrives] at read
        exact Option.some.inj read
      refine ⟨faithful.perform performed ⟨call, made, rfl, rfl⟩ fit, _,
        step_of_perform performed (delivered_handled.mpr ?_)⟩
      rw [faithful.senders _ _ _ asked]
      exact asked
  | finish reply =>
      obtain ⟨number, bytes⟩ := reply
      obtain ⟨given, taken⟩ := Option.ite_none_right_eq_some.mp taken
      obtain ⟨call, made, taken⟩ := Option.bind_eq_some_iff.mp taken
      obtain ⟨pb, read, performed⟩ := Option.bind_eq_some_iff.mp taken
      obtain ⟨same, reply, made', rfl, answered⟩ := faithful.replies number bytes given
      obtain rfl : call = same := Option.some.inj (made.symm.trans made')
      obtain ⟨pb', read', converted⟩ :=
        receive_writeReply lawful (fitOutput_answer.mp (faithful.fit _ _ answered))
      obtain rfl : pb = pb' := Option.some.inj (read.symm.trans read')
      rw [converted] at performed
      exact ⟨faithful.perform performed (fun _ => handled_ne_answered) fit, _,
        step_of_perform performed (delivered_answered.mpr answered)⟩

/-- A step of the cluster can be made on the wire. -/
theorem Faithful.back (faithful : Faithful runtime before) {label : ServerId × Event}
    {final : Cluster} (taken : Cluster.step config before.nodes label = some final) :
    ∃ label' after, step runtime config before label' = some after ∧ after.nodes = final := by
  obtain ⟨self, event⟩ := label
  rcases event_cases event with quiet | ⟨msg, rfl⟩ | ⟨target, msg, reply, rfl⟩
  · obtain ⟨after, performed, same⟩ := exists_perform runtime none taken
    exact ⟨.act self event, after, (if_pos quiet).trans performed, same⟩
  · have asked := delivered_handled.mp (Cluster.step_eq_some.mp taken).2.1
    obtain ⟨call, made, caller, rfl, rfl⟩ := faithful.sent _ _ _ asked
    obtain ⟨number, here⟩ := List.mem_iff_getElem?.mp made
    obtain ⟨fits, text⟩ := fitOutput_output.mp (faithful.fit _ _ asked)
    have arrives := read_send lawful fits text
    rw [← (faithful.calls call made).1] at arrives
    obtain ⟨after, performed, same⟩ := exists_perform runtime (some number) taken
    refine ⟨.handle number, after, ?_, same⟩
    simp only [step, here, Option.bind_eq_bind, Option.bind_some, arrives, performed]
  · obtain ⟨-, delivered, result, moved, -⟩ := Cluster.step_eq_some.mp taken
    have answered := delivered_answered.mp delivered
    obtain ⟨number, call, made, caller, rfl, rfl, given⟩ := faithful.given _ _ _ answered
    have own : call.caller = self := caller.trans ((faithful.signs self).sender moved)
    obtain ⟨pb, read, converted⟩ :=
      receive_writeReply lawful (fitOutput_answer.mp (faithful.fit _ _ answered))
    obtain ⟨after, performed, same⟩ := exists_perform runtime none taken
    refine ⟨.finish ⟨number, writeReply runtime reply⟩, after, ?_, same⟩
    simp only [step, if_pos given, made, Option.bind_eq_bind, Option.bind_some, read, converted,
      own, performed]

end Steps

/-- On the wire the servers go through exactly the states that they go through without it. -/
theorem shows_iff (runtime : Runtime) (lawful : runtime.Lawful) (config : ClusterConfig)
    {states : List Cluster} (fit : ∀ state ∈ states, state.Fit runtime config) :
    (∃ labels, (Execution.trace (step runtime config) labels {}).map (List.map nodes) =
        some states) ↔
      ∃ labels, Execution.trace (Cluster.step config) labels Cluster.init = some states :=
  Execution.traces_iff (fun _ _ _ faithful taken fit => faithful.forth lawful taken fit)
    (fun _ _ _ faithful taken => faithful.back lawful taken) faithful_init fit

/-- The first election is held on the wire. -/
theorem shows_firstElection :
    ∃ states ∈ Execution.trace (Cluster.step trio) Cluster.firstElection Cluster.init,
      ∃ labels, (Execution.trace (step Varint.runtime trio) labels {}).map (List.map nodes) =
        some states := by
  have held : ∃ states ∈ Execution.trace (Cluster.step trio) Cluster.firstElection Cluster.init,
      ∀ state ∈ states, state.Fit Varint.runtime trio := by
    decide +kernel
  obtain ⟨states, shown, fit⟩ := held
  exact ⟨states, shown,
    (shows_iff Varint.runtime Varint.runtime_lawful trio fit).mpr ⟨_, shown⟩⟩

end WireCluster

end Quintet
