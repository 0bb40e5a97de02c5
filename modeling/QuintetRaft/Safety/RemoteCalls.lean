import QuintetRaft.Model.RemoteCalls
import QuintetRaft.Safety.RpcOutcomes
import QuintetRaft.Safety.WireMessages

/-!
# Replies belong to their calls

Whatever the network does, a promise that gets a value gets what a service has returned for the very
message the call was made with.
-/

namespace Quintet

open Rpc WireFormat

/-! ## One call -/

namespace Rpc

/-- What a call that is handled by a function brings back is the value of this function, if message
and reply are fit for the network. -/
def Crossing.Carries {Req Rep Wire Pb : Type} (crossing : Crossing Req Rep Wire Pb)
    (convert : Pb → Rep) (fitReq : Req → Prop) (fitRep : Rep → Prop) : Prop :=
  ∀ msg f bytes reply, fitReq msg → fitRep (f msg) →
    crossing.serve f (crossing.send msg) = some bytes → crossing.receive bytes = some reply →
      convert reply = f msg

variable (runtime : Runtime)

/-- A request of a server survives conversion and is small enough to be written. -/
def FitRequest : PeerRequest → Prop
  | .appendEntries msg => msg.Fits ∧
      PbAppendEntriesMessage.byteSizeLong runtime (convertAppendEntriesMessage msg) < sizeLimit
  | .requestVote msg => msg.Fits ∧
      PbRequestVoteMessage.byteSizeLong runtime (convertRequestVoteMessage msg) < sizeLimit

/-- A reply of a server survives conversion and is small enough to be written. -/
def FitReply (reply : Reply) : Prop :=
  reply.Fits ∧ PbReply.byteSizeLong runtime (convertReply reply) < sizeLimit

/-- A command is small enough to be written. -/
def FitCommand (msg : AddLogMessage) : Prop :=
  PbAddLogMessage.byteSizeLong runtime (convertAddLogMessage msg) < sizeLimit

/-- The answer to a client is small enough to be written. -/
def FitAnswer (reply : AddLogReply) : Prop :=
  PbAddLogReply.byteSizeLong runtime (convertAddLogReply reply) < sizeLimit

variable {runtime} (lawful : runtime.Lawful)

include lawful

theorem receive_reply {reply : Reply} (fit : FitReply runtime reply) :
    ∃ pb, (peers runtime).receive (PbReply.serializeWithCachedSizes runtime
        ((PbReply.messages runtime).copyFrom (convertReply reply))) = some pb ∧
      Quintet.convertReply pb = reply := by
  have kept := (PbReply.fielded lawful).lawful
  have parsed := kept.parse_serialize fit.2 (whole_convertReply reply) (PbReply.valid lawful _)
  refine ⟨(convertReply reply).accessors, ?_, convertReply_back.mpr fit.1⟩
  rw [MessageClass.copyFrom, kept.mergeFrom_empty]
  exact Option.map_eq_some_iff.mpr ⟨_, parsed, rfl⟩

/-- A service that can read a request has read what was sent. -/
theorem serve_peers {msg : PeerRequest} {f : PeerRequest → Reply} {bytes : Bytes}
    (fit : FitRequest runtime msg)
    (served : (peers runtime).serve f ((peers runtime).send msg) = some bytes) :
    bytes = PbReply.serializeWithCachedSizes runtime
      ((PbReply.messages runtime).copyFrom (convertReply (f msg))) := by
  cases msg with
  | appendEntries msg =>
      obtain ⟨request, parsed, rfl⟩ := Option.map_eq_some_iff.mp served
      obtain ⟨-, rfl⟩ := ((PbAppendEntriesMessage.fielded lawful).lawful.parse_serialize_iff fit.2
        (whole_convertAppendEntriesMessage msg)).mp parsed
      rw [RaftRpcImpl.appendEntries, convertAppendEntriesMessage_back.mpr fit.1]
  | requestVote msg =>
      obtain ⟨request, parsed, rfl⟩ := Option.map_eq_some_iff.mp served
      obtain ⟨-, rfl⟩ := ((PbRequestVoteMessage.fielded lawful).lawful.parse_serialize_iff fit.2
        (whole_convertRequestVoteMessage msg)).mp parsed
      rw [RaftRpcImpl.requestVote, convertRequestVoteMessage_back.mpr fit.1]

theorem peers_carry :
    (peers runtime).Carries Quintet.convertReply (FitRequest runtime) (FitReply runtime) := by
  intro msg f bytes reply fit fitReply served received
  obtain ⟨pb, received', same⟩ := receive_reply lawful fitReply
  obtain rfl := serve_peers lawful fit served
  obtain rfl : reply = pb := Option.some.inj (received.symm.trans received')
  exact same

theorem clients_carry :
    (clients runtime).Carries Quintet.convertAddLogReply (FitCommand runtime)
      (FitAnswer runtime) := by
  intro msg f bytes reply fit fitReply served received
  have kept := (PbAddLogReply.fielded lawful).lawful
  obtain ⟨request, parsed, rfl⟩ := Option.map_eq_some_iff.mp served
  obtain ⟨-, rfl⟩ := ((PbAddLogMessage.fielded lawful).lawful.parse_serialize_iff fit
    (whole_convertAddLogMessage msg)).mp parsed
  obtain ⟨answer, parsed', rfl⟩ := Option.map_eq_some_iff.mp received
  rw [RaftRpcImpl.addLog, convertAddLogMessage_back, MessageClass.copyFrom,
    kept.mergeFrom_empty] at parsed'
  obtain ⟨-, rfl⟩ := (kept.parse_serialize_iff fitReply (whole_convertAddLogReply _)).mp parsed'
  exact convertAddLogReply_back (f msg)

end Rpc

/-! ## All calls of a client -/

namespace ClientKind

theorem issued_of_step {Target Pb R : Type} {kind : ClientKind Target Pb R}
    {before after : AsyncClient Pb R} {event : ClientEvent Target Pb}
    (taken : kind.step before event = some after)
    (other : ∀ target, event ≠ .asyncCall target) : after.issued = before.issued := by
  cases event with
  | asyncRun =>
      obtain ⟨-, rfl⟩ := Execution.guarded_eq_some.mp taken
      rfl
  | asyncCall target => exact absurd rfl (other target)
  | finish call =>
      obtain ⟨-, rfl⟩ := Execution.guarded_eq_some.mp taken
      rfl
  | next =>
      obtain ⟨-, taken⟩ := Option.ite_none_right_eq_some.mp taken
      cases queue : before.cq with
      | nil =>
          rw [queue] at taken
          obtain ⟨-, rfl⟩ := Execution.guarded_eq_some.mp taken
          rfl
      | cons call rest =>
          rw [queue] at taken
          obtain rfl := Option.some.inj taken
          rfl
  | stop =>
      obtain rfl := Option.some.inj taken
      rfl

end ClientKind

namespace RemoteCalls

variable {Target Req Rep Wire Pb : Type} {kind : ClientKind Target Pb Rep}
  {crossing : Crossing Req Rep Wire Pb} {empty : Pb} {fitReq : Req → Prop} {fitRep : Rep → Prop}
  {before after : RemoteCalls Req Rep Wire Pb} {event : RemoteEvent Target Req Rep}
  {call : ℕ} {reply : Rep}

/-- Messages that clients send and values that handlers return are fit for the network. -/
def Fit (fitReq : Req → Prop) (fitRep : Rep → Prop) (before : RemoteCalls Req Rep Wire Pb) :
    RemoteEvent Target Req Rep → RemoteCalls Req Rep Wire Pb → Prop
  | .asyncCall _ msg, _ => fitReq msg
  | .handle call f, _ => ∀ msg, before.msgs[call]? = some msg → fitRep (f msg)
  | _, _ => True

/-- A service has called some function for the call, which gives this reply to its message. -/
def Answered (calls : RemoteCalls Req Rep Wire Pb) (call : ℕ) (reply : Rep) : Prop :=
  ∃ msg f, calls.msgs[call]? = some msg ∧ (call, f) ∈ calls.handled ∧ reply = f msg

/-- Calls and answers stay. -/
theorem Answered.mono (answered : before.Answered call reply)
    (msgs : before.msgs <+: after.msgs) (handled : before.handled ⊆ after.handled) :
    after.Answered call reply := by
  obtain ⟨msg, f, made, called, same⟩ := answered
  obtain ⟨later, grown⟩ := msgs
  refine ⟨msg, f, ?_, handled called, same⟩
  rw [← grown]
  exact (List.getElem?_append_left (List.getElem?_eq_some_iff.mp made).1).trans made

/-- All that is under way comes from messages of calls. -/
structure Faithful (kind : ClientKind Target Pb Rep) (crossing : Crossing Req Rep Wire Pb)
    (fitReq : Req → Prop) (calls : RemoteCalls Req Rep Wire Pb) : Prop where
  books : kind.Books calls.client
  issued : calls.msgs.length = calls.client.issued
  requests : calls.requests = calls.msgs.map crossing.send
  fit : ∀ msg ∈ calls.msgs, fitReq msg
  replies : ∀ call bytes, (call, bytes) ∈ calls.replies → ∀ reply,
    crossing.receive bytes = some reply → calls.Answered call (kind.convert reply)
  finished : ∀ finished ∈ calls.client.finished, finished.status.ok = true →
    calls.Answered finished.call (kind.convert finished.reply)

theorem faithful_fresh (started : Bool) :
    Faithful kind crossing fitReq { client := .fresh started } where
  books := kind.books_fresh started
  issued := rfl
  requests := rfl
  fit := by simp
  replies := by simp
  finished := by simp [AsyncClient.fresh]

theorem onClient_eq_some {event : ClientEvent Target Pb}
    (taken : before.onClient kind event = some after) :
    ∃ client, kind.step before.client event = some client ∧ after = { before with client } := by
  obtain ⟨client, stepped, same⟩ := Option.map_eq_some_iff.mp taken
  exact ⟨client, stepped, same.symm⟩

/-- What happens to the client alone. -/
theorem Faithful.onClient (faithful : Faithful kind crossing fitReq before)
    {event : ClientEvent Target Pb} (taken : before.onClient kind event = some after)
    (other : ∀ target, event ≠ .asyncCall target)
    (right : ∀ call ∈ finishes [event], call.status.ok = true →
      before.Answered call.call (kind.convert call.reply)) :
    Faithful kind crossing fitReq after := by
  obtain ⟨client, stepped, rfl⟩ := onClient_eq_some taken
  exact
    { books := faithful.books.step stepped
      issued := faithful.issued.trans (kind.issued_of_step stepped other).symm
      requests := faithful.requests
      fit := faithful.fit
      replies := faithful.replies
      finished := by
        intro call member ok
        rw [ClientKind.step_finished stepped] at member
        rcases List.mem_append.mp member with earlier | now
        · exact faithful.finished call earlier ok
        · exact right call now ok }

/-- A call is made. -/
theorem Faithful.asyncCall (faithful : Faithful kind crossing fitReq before) {target : Target}
    {msg : Req} (taken : step kind crossing empty before (.asyncCall target msg) = some after)
    (fit : fitReq msg) : Faithful kind crossing fitReq after := by
  obtain ⟨middle, moved, rfl⟩ := Option.map_eq_some_iff.mp taken
  obtain ⟨client, stepped, rfl⟩ := onClient_eq_some moved
  have books := faithful.books.step stepped
  have finished := ClientKind.step_finished stepped
  rw [finishes, List.filterMap_cons, List.filterMap_nil, List.append_nil] at finished
  obtain ⟨-, same⟩ := Option.ite_none_left_eq_some.mp stepped
  obtain rfl := Option.some.inj same
  rw [ClientKind.asyncCall] at books finished ⊢
  split_ifs at books finished ⊢ with known
  · have mono : ∀ {call : ℕ} {reply : Rep}, before.Answered call reply →
        Answered { before with msgs := before.msgs ++ [msg] } call reply :=
      fun answered => answered.mono (List.prefix_append _ _) (List.Subset.refl _)
    exact
      { books := books
        issued := by simp [faithful.issued]
        requests := by simp [faithful.requests]
        fit := by
          simpa [or_imp, forall_and] using And.intro faithful.fit fit
        replies := fun call bytes member reply received =>
          mono (faithful.replies call bytes member reply received)
        finished := fun call member ok => mono (faithful.finished call member ok) }
  · exact faithful

/-- A service handles a call. -/
theorem Faithful.handle (carries : crossing.Carries kind.convert fitReq fitRep)
    (faithful : Faithful kind crossing fitReq before) {call : ℕ} {f : Req → Rep}
    (taken : step kind crossing empty before (.handle call f) = some after)
    (fit : ∀ msg, before.msgs[call]? = some msg → fitRep (f msg)) :
    Faithful kind crossing fitReq after := by
  obtain ⟨request, sent, taken⟩ := Option.bind_eq_some_iff.mp taken
  obtain ⟨bytes, served, taken⟩ := Option.bind_eq_some_iff.mp taken
  obtain rfl := Option.some.inj taken
  rw [faithful.requests, List.getElem?_map, Option.map_eq_some_iff] at sent
  obtain ⟨msg, made, rfl⟩ := sent
  have mono : ∀ {call' : ℕ} {reply : Rep}, before.Answered call' reply →
      Answered { before with handled := before.handled ++ [(call, f)] } call' reply :=
    fun answered => answered.mono List.prefix_rfl (List.subset_append_left _ _)
  refine
    { books := faithful.books
      issued := faithful.issued
      requests := faithful.requests
      fit := faithful.fit
      replies := fun call' bytes' member reply received => ?_
      finished := fun finished member ok => mono (faithful.finished finished member ok) }
  rcases List.mem_append.mp member with earlier | now
  · exact mono (faithful.replies call' bytes' earlier reply received)
  · obtain ⟨rfl, rfl⟩ := Prod.mk.inj (List.mem_singleton.mp now)
    have fitMsg := faithful.fit msg (List.mem_of_getElem? made)
    exact ⟨msg, f, made, by simp, carries msg f _ reply fitMsg (fit msg made) served received⟩

theorem Faithful.step (carries : crossing.Carries kind.convert fitReq fitRep)
    (faithful : Faithful kind crossing fitReq before)
    (taken : step kind crossing empty before event = some after)
    (fit : Fit fitReq fitRep before event after) : Faithful kind crossing fitReq after := by
  cases event with
  | asyncRun => exact faithful.onClient taken (by simp) (by simp [finishes])
  | asyncCall target msg => exact faithful.asyncCall taken fit
  | handle call f => exact faithful.handle carries taken fit
  | finish call bytes =>
      obtain ⟨member, taken⟩ := Option.ite_none_right_eq_some.mp taken
      obtain ⟨reply, received, taken⟩ := Option.bind_eq_some_iff.mp taken
      have answered := faithful.replies call bytes member reply received
      exact faithful.onClient taken (by simp) (by simpa [finishes] using fun _ => answered)
  | fail call status =>
      obtain ⟨bad, taken⟩ := Option.ite_none_left_eq_some.mp taken
      exact faithful.onClient taken (by simp)
        (by simpa [finishes] using fun ok => absurd ok bad)
  | next => exact faithful.onClient taken (by simp) (by simp [finishes])
  | stop => exact faithful.onClient taken (by simp) (by simp [finishes])

/-- The `n`-th message recorded is that of the `n`-th call, and every promise that has got a value
has got one that a service has returned for the message of its call. -/
def Belong (calls : RemoteCalls Req Rep Wire Pb) : Prop :=
  calls.msgs.length = calls.client.issued ∧
    ∀ call reply, (call, .value reply) ∈ calls.client.prms → calls.Answered call reply

theorem Faithful.belong (faithful : Faithful kind crossing fitReq before) : before.Belong := by
  refine ⟨faithful.issued, fun call reply promised => ?_⟩
  obtain ⟨calls, finished, prms, -⟩ := faithful.books.taken
  rw [prms] at promised
  obtain ⟨served, member, same⟩ := List.mem_map.mp promised
  obtain ⟨rfl, outcome⟩ := Prod.mk.inj same
  rw [ClientKind.outcome] at outcome
  split_ifs at outcome with ok
  obtain rfl := Outcome.value.inj outcome
  exact faithful.finished served (by rw [finished]; exact List.mem_append_left _ member) ok

theorem belong_of_run (carries : crossing.Carries kind.convert fitReq fitRep) {started : Bool}
    {events : List (RemoteEvent Target Req Rep)}
    (fit : Execution.Along (RemoteCalls.step kind crossing empty) (Fit fitReq fitRep) events
      { client := .fresh started })
    (execution : Execution.run (RemoteCalls.step kind crossing empty) events
      { client := .fresh started } = some after) : after.Belong :=
  (Execution.invariant_of_along (fun _ _ _ faithful taken fit => faithful.step carries taken fit)
    (faithful_fresh started) fit execution).belong

end RemoteCalls

/-- Every run of a client in which all messages and replies are fit for the network. -/
def RepliesBelong {Target Req Rep Wire Pb : Type} (kind : ClientKind Target Pb Rep)
    (crossing : Crossing Req Rep Wire Pb) (empty : Pb) (fitReq : Req → Prop)
    (fitRep : Rep → Prop) : Prop :=
  ∀ started events after,
    Execution.Along (RemoteCalls.step kind crossing empty) (RemoteCalls.Fit fitReq fitRep) events
      { client := .fresh started } →
    Execution.run (RemoteCalls.step kind crossing empty) events { client := .fresh started } =
      some after → after.Belong

theorem repliesBelong (runtime : Runtime) (lawful : runtime.Lawful) :
    RepliesBelong rpcClient (peers runtime) {} (FitRequest runtime) (FitReply runtime) ∧
      (∀ stubs, RepliesBelong (rpcClients stubs) (peers runtime) {} (FitRequest runtime)
        (FitReply runtime)) ∧
      RepliesBelong raftClient (clients runtime) {} (FitCommand runtime) (FitAnswer runtime) :=
  ⟨fun _ _ _ => RemoteCalls.belong_of_run (peers_carry lawful),
    fun _ _ _ _ => RemoteCalls.belong_of_run (peers_carry lawful),
    fun _ _ _ => RemoteCalls.belong_of_run (clients_carry lawful)⟩

/-- A server asks for a vote and gets it. -/
def voteRound : List (RemoteEvent Unit PeerRequest Reply) :=
  [.asyncCall () (.requestVote { term := 2 }), .handle 0 fun _ => (2, true),
    .finish 0 [8, 2, 16, 1], .next]

theorem repliesBelong_voteRound :
    ((Execution.run (RemoteCalls.step rpcClient (peers Varint.runtime) {}) voteRound
        { client := .fresh true }).map fun calls => calls.client.prms) =
      some [(0, .value (2, true))] ∧
      ∀ after, Execution.run (RemoteCalls.step rpcClient (peers Varint.runtime) {}) voteRound
        { client := .fresh true } = some after → after.Belong := by
  refine ⟨by decide, fun after =>
    (repliesBelong Varint.runtime Varint.runtime_lawful).1 true voteRound after ?_⟩
  have fitRequest : FitRequest Varint.runtime (.requestVote { term := 2 }) :=
    ⟨⟨by decide, by decide, by decide⟩, by decide⟩
  have fitReply : FitReply Varint.runtime (2, true) :=
    ⟨show 2 < termModulus by decide, by decide⟩
  exact ⟨fitRequest, fun _ _ => fitReply, trivial, trivial, trivial⟩

end Quintet
