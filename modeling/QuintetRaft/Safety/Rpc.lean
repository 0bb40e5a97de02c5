import QuintetRaft.Library.Execution
import QuintetRaft.Model.Cluster
import QuintetRaft.Model.Hazards

/-!
# Single RPCs

What one request or reply does to a server: when a granted vote respects the election restriction,
when a stale request is rejected, and when a greater term is adopted.  Every answer is an
equivalence with a condition on the server before the step.
-/

namespace Quintet

namespace Server

variable {info : ServerInfo} {srv : Server} {event : Event} {result : Server × List Output}

/-! ## The election restriction -/

/-- A vote is granted only to a candidate whose log is at least as recent as the voter's. -/
def RestrictsVote (srv : Server) (msg : RequestVoteMessage) : Prop :=
  (srv.rpcRequestVote msg).2.1.2 = true →
    srv.state.lastTerm < msg.lastLogTerm ∨
      srv.state.lastTerm = msg.lastLogTerm ∧ srv.state.entries.length - 1 ≤ msg.lastLogIdx

instance (msg : RequestVoteMessage) : Decidable (srv.RestrictsVote msg) :=
  inferInstanceAs (Decidable (_ → _))

/-- The branch for greater terms is the one that forgets the comparison of the logs. -/
theorem restrictsVote_iff (srv : Server) (msg : RequestVoteMessage) :
    srv.RestrictsVote msg ↔
      (srv.Serving → srv.state.currentTerm < msg.term →
        upToDate srv.state msg.lastLogIdx msg.lastLogTerm) := by
  unfold RestrictsVote
  by_cases serving : srv.Serving
  · rw [rpcRequestVote_reply serving]
    change (decide (srv.state.grants msg) = true → upToDate srv.state _ _) ↔ _
    rw [decide_eq_true_iff]
    constructor
    · exact fun restricts _ greater => restricts (.inl greater)
    · rintro checked (greater | ⟨-, recent⟩)
      · exact checked serving greater
      · exact recent
  · simp [rpcRequestVote_of_not_serving serving, serving]

/-- A voter with an entry of term 1 elects a candidate with an empty log in term 2. -/
theorem restrictsVote_counterexample :
    ¬ RestrictsVote { state := { currentTerm := 1, entries := [{}, { term := 1 }] } }
        { term := 2, candidateId := { addr := "localhost", port := 1 } } := by
  decide

/-! ## Stale requests -/

/-- The request is answered with the current term and a refusal, and nothing changes. -/
def RejectsUnchanged (srv : Server) (outcome : Server × Reply × List Output) : Prop :=
  outcome.2.1 = (srv.state.currentTerm, false) ∧
    outcome.1.state.currentTerm = srv.state.currentTerm ∧
    outcome.1.state.votedFor = srv.state.votedFor ∧
    outcome.1.state.entries = srv.state.entries ∧
    outcome.1.state.commitIdx = srv.state.commitIdx ∧
    outcome.1.events = srv.events

/-- No identity rejects a stale vote request: `checkRpcTerm` has lowered the term it is compared
with. -/
theorem stale_vote_not_rejected (serving : srv.Serving) {msg : RequestVoteMessage}
    (stale : msg.term < srv.state.currentTerm) :
    ¬ srv.RejectsUnchanged (srv.rpcRequestVote msg) := by
  rintro ⟨reply, -⟩
  rw [rpcRequestVote_reply serving] at reply
  exact stale.ne (Prod.mk.inj reply).1

/-- Only the follower, which compares the terms before `checkRpcTerm`, rejects a stale append
request. -/
theorem stale_append_rejected_iff (serving : srv.Serving) {msg : AppendEntriesMessage}
    (stale : msg.term < srv.state.currentTerm) :
    srv.RejectsUnchanged (srv.rpcAppendEntries msg) ↔ srv.identity = .follower := by
  constructor
  · rintro ⟨-, kept, -⟩
    by_contra other
    have role : srv.identity = .candidate ∨ srv.identity = .leader :=
      serving.resolve_left other
    rw [(rpcAppendEntries_state msg).1, termAfter, if_pos role] at kept
    omega
  · intro role
    rw [rpcAppendEntries_of_follower_stale role stale]
    exact ⟨rfl, rfl, rfl, rfl, rfl, rfl⟩

end Server

namespace Cluster

variable {config : ClusterConfig}

/-- No server's term is smaller after the step. -/
def TermsKept (before : Cluster) (_ : ServerId × Event) (after : Cluster) : Prop :=
  ∀ id, (before id).server.state.currentTerm ≤ (after id).server.state.currentTerm

/-- The step neither takes the branch of `checkRpcTerm` nor wraps a term. -/
def KeepsTerm (before : Cluster) (label : ServerId × Event) (_ : Cluster) : Prop :=
  ¬ (before label.1).server.LowersTerm label.2 ∧ ¬ (before label.1).server.WrapsTerm label.2

instance (before : Cluster) (label : ServerId × Event) (after : Cluster) :
    Decidable (KeepsTerm before label after) :=
  inferInstanceAs (Decidable (_ ∧ _))

theorem termsKept_iff {before after : Cluster} {label : ServerId × Event}
    (taken : step config before label = some after) :
    TermsKept before label after ↔ KeepsTerm before label after := by
  obtain ⟨-, -, result, moved, rfl⟩ := step_eq_some.mp taken
  rw [KeepsTerm, ← not_or, ← Server.termAfter_lt_iff, ← Server.step_currentTerm moved, Nat.not_lt]
  constructor
  · intro kept
    simpa using kept label.1
  · intro kept id
    by_cases same : id = label.1
    · subst same
      simpa using kept
    · simp [same]

end Cluster

/-- Stale requests are rejected by the follower's append handler and by no other handler, and a
run keeps all terms exactly when it never takes the branch of `checkRpcTerm` and never wraps a
term. -/
theorem stale_rpc_iff (config : ClusterConfig) :
    (∀ (srv : Server) (msg : RequestVoteMessage), srv.Serving →
        msg.term < srv.state.currentTerm → ¬ srv.RejectsUnchanged (srv.rpcRequestVote msg)) ∧
      (∀ (srv : Server) (msg : AppendEntriesMessage), srv.Serving →
        msg.term < srv.state.currentTerm →
          (srv.RejectsUnchanged (srv.rpcAppendEntries msg) ↔ srv.identity = .follower)) ∧
      ∀ labels cluster,
        Execution.Along (Cluster.step config) Cluster.TermsKept labels cluster ↔
          Execution.Along (Cluster.step config) Cluster.KeepsTerm labels cluster := by
  refine ⟨fun _ _ serving stale => Server.stale_vote_not_rejected serving stale,
    fun _ _ serving stale => Server.stale_append_rejected_iff serving stale,
    fun labels cluster => ?_⟩
  have equivalent := fun before label after
    (taken : Cluster.step config before label = some after) => Cluster.termsKept_iff taken
  exact Execution.along_congr equivalent

/-- A follower of term 2 with an empty log. -/
def Server.followerOfTermTwo : Server := { state := { currentTerm := 2 } }

/-- The rejecting direction at a concrete follower. -/
theorem stale_rpc_iff_at_follower :
    Server.followerOfTermTwo.RejectsUnchanged
      (Server.followerOfTermTwo.rpcAppendEntries { term := 1 }) :=
  ((stale_rpc_iff ⟨[], List.nodup_nil, List.not_mem_nil⟩).2.1 Server.followerOfTermTwo
    { term := 1 } (by decide) (by decide)).mpr rfl

/-- A vote request of term 1 brings a follower of term 2 back to term 1, with a vote. -/
theorem stale_rpc_counterexample :
    Server.followerOfTermTwo.Serving ∧ 1 < Server.followerOfTermTwo.state.currentTerm ∧
      ¬ Server.followerOfTermTwo.RejectsUnchanged
        (Server.followerOfTermTwo.rpcRequestVote
          { term := 1, candidateId := { addr := "localhost", port := 1 } }) ∧
      (Server.followerOfTermTwo.rpcRequestVote
        { term := 1, candidateId := { addr := "localhost", port := 1 } }).1.state.currentTerm <
        Server.followerOfTermTwo.state.currentTerm := by
  refine ⟨by decide, by decide, ?_, by decide⟩
  exact Server.stale_vote_not_rejected (by decide) (by decide)

/-! ## Greater terms -/

namespace Server

variable {info : ServerInfo} {srv : Server} {event : Event} {result : Server × List Output}

/-- The term carried by the request or reply an event processes. -/
def carriedTerm (srv : Server) : Event → Option Nat
  | .rpcRequestVote msg => if srv.Serving then some msg.term else none
  | .rpcAppendEntries msg => if srv.Serving then some msg.term else none
  | .receiveVote _ _ reply => if srv.identity = .candidate then some reply.1 else none
  | .receiveAppendReply _ _ reply => if srv.identity = .leader then some reply.1 else none
  | _ => none

/-- The second bullet of "Rules for Servers": the server is in the new term, without a vote but for
one it has just given, it answers in the new term, and it steps down. -/
def AdoptsTerm (srv : Server) (event : Event) (term : Nat) (result : Server × List Output) :
    Prop :=
  result.1.state.currentTerm = term ∧
    (result.1.state.votedFor = nullServerId ∨ ∃ msg ∈ event.voteRequest,
      Output.voteReply msg (term, true) ∈ result.2 ∧
        result.1.state.votedFor = msg.candidateId) ∧
    (∀ msg reply, Output.voteReply msg reply ∈ result.2 → reply.1 = term) ∧
    (∀ msg reply, Output.appendReply msg reply ∈ result.2 → reply.1 = term) ∧
    (srv.identity = .candidate ∨ srv.identity = .leader →
      (.follower, term) ∈ result.1.events)

/-- The step-down to a term is already queued, or the gate of `notify` is open for it. -/
def CanStepDown (srv : Server) (term : Nat) : Prop :=
  srv.accepts term ∨ (.follower, term) ∈ srv.events

/-- The steps on which a greater term is adopted in full. -/
def AdoptsAt (srv : Server) (event : Event) (term : Nat) : Prop :=
  match event with
  | .rpcRequestVote _ => srv.identity = .follower ∨ srv.CanStepDown term
  | .receiveAppendReply _ _ reply =>
      reply.2 = false ∧ srv.state.votedFor = nullServerId ∧ srv.CanStepDown term
  | _ => False

theorem mem_notify_iff {term : Nat} :
    (.follower, term) ∈ (srv.notify .follower term).events ↔ srv.CanStepDown term := by
  rw [notify_events]
  split_ifs with opens <;> simp [CanStepDown, opens]

/-- A vote request of a greater term is granted; only the step-down can be lost. -/
theorem adopts_vote_iff {msg : RequestVoteMessage} (serving : srv.Serving)
    (greater : srv.state.currentTerm < msg.term)
    (taken : step info srv (.rpcRequestVote msg) = some result) :
    srv.AdoptsTerm (.rpcRequestVote msg) msg.term result ↔
      srv.identity = .follower ∨ srv.CanStepDown msg.term := by
  have granted : srv.state.grants msg := .inl greater
  obtain ⟨-, rfl⟩ := step_rpcRequestVote.mp taken
  have queue : (srv.rpcRequestVote msg).1.events =
      (if srv.identity ≠ .follower then srv.notify .follower msg.term else srv).events := by
    rw [rpcRequestVote_of_serving serving, deferApply, requestVoteBody_eq]
    simp [greater.ne]
  have answer : (srv.rpcRequestVote msg).2.1 = (msg.term, true) := by
    simp [rpcRequestVote_reply serving, granted]
  have silent : ∀ request reply, Output.appendReply request reply ∉
      (srv.rpcRequestVote msg).2.2 ++ [.voteReply msg (srv.rpcRequestVote msg).2.1] :=
    fun request reply member => by simpa [Emits] using step_emits taken member
  have replies : ∀ request reply, Output.voteReply request reply ∈
      (srv.rpcRequestVote msg).2.2 ++ [.voteReply msg (srv.rpcRequestVote msg).2.1] →
      reply.1 = msg.term := fun request reply member => by
    obtain ⟨same, rfl⟩ := step_emits taken member
    cases same
    rw [answer]
  have stepsDown : (srv.identity = .candidate ∨ srv.identity = .leader →
      (.follower, msg.term) ∈ (srv.rpcRequestVote msg).1.events) ↔
      srv.identity = .follower ∨ srv.CanStepDown msg.term := by
    rw [queue]
    rcases serving with role | role | role
    · simp [role]
    · simp [role, mem_notify_iff]
    · simp [role, mem_notify_iff]
  rw [← stepsDown]
  constructor
  · exact fun adopts => adopts.2.2.2.2
  · intro down
    refine ⟨by simp [rpcRequestVote_state serving], .inr ⟨msg, rfl, by simp [answer], ?_⟩,
      replies, fun request reply member => absurd member (silent request reply), down⟩
    simp [rpcRequestVote_state serving, granted]

/-- A reply to an append request is adopted by a leader that has no vote to forget. -/
theorem adopts_reply_iff {target : ServerId} {msg : AppendEntriesMessage} {reply : Reply}
    (role : srv.identity = .leader) (greater : srv.state.currentTerm < reply.1)
    (taken : step info srv (.receiveAppendReply target msg reply) = some result) :
    srv.AdoptsTerm (.receiveAppendReply target msg reply) reply.1 result ↔
      reply.2 = false ∧ srv.state.votedFor = nullServerId ∧ srv.CanStepDown reply.1 := by
  obtain ⟨node, oldMatchIdx, retryTimes, -, -, rfl⟩ := step_receiveAppendReply.mp taken
  obtain ⟨term, success⟩ := reply
  cases success with
  | true =>
      simp only [AdoptsTerm, receiveAppendReply_state, if_true]
      exact iff_of_false (fun adopts => greater.ne adopts.1) (by simp)
  | false =>
      have queue : (srv.receiveAppendReply target node oldMatchIdx retryTimes msg
          (term, false)).events = (srv.notify .follower term).events := by
        simp [receiveAppendReply, greater, finishAppending, notify_withState]
      simp [AdoptsTerm, receiveAppendReply_state, Nat.max_eq_right greater.le, queue, role,
        mem_notify_iff, Event.voteRequest]

/-- A greater term is adopted in full by a follower asked for its vote, by a candidate or leader
asked for its vote whose step-down gets through `notify`, and by a leader without a vote of its
own that is refused an append; nowhere else. -/
theorem adoptsTerm_iff {term : Nat} (taken : step info srv event = some result)
    (carried : srv.carriedTerm event = some term) (greater : srv.state.currentTerm < term) :
    srv.AdoptsTerm event term result ↔ srv.AdoptsAt event term := by
  cases event with
  | rpcRequestVote msg =>
      obtain ⟨serving, rfl⟩ : srv.Serving ∧ msg.term = term := by simpa [carriedTerm] using carried
      exact adopts_vote_iff serving greater taken
  | rpcAppendEntries msg =>
      obtain ⟨-, rfl⟩ : srv.Serving ∧ msg.term = term := by simpa [carriedTerm] using carried
      refine iff_of_false (fun adopts => ?_) id
      have kept := adopts.1
      rw [step_currentTerm taken, termAfter] at kept
      split_ifs at kept <;> omega
  | receiveVote target msg reply =>
      obtain ⟨-, rfl⟩ : srv.identity = .candidate ∧ reply.1 = term := by
        simpa [carriedTerm] using carried
      refine iff_of_false (fun adopts => ?_) id
      have kept := adopts.1
      rw [step_state_of_quiet taken trivial] at kept
      omega
  | receiveAppendReply target msg reply =>
      obtain ⟨role, rfl⟩ : srv.identity = .leader ∧ reply.1 = term := by
        simpa [carriedTerm] using carried
      exact adopts_reply_iff role greater taken
  | _ => simp [carriedTerm] at carried

/-- A follower of term 0 adopts term 2 from a vote request. -/
theorem adoptsTerm_iff_at_follower :
    ∃ result,
      step { localId := {}, srvList := [] } {} (.rpcRequestVote { term := 2 }) = some result ∧
        AdoptsTerm {} (.rpcRequestVote { term := 2 }) 2 result := by
  have enabled : ∃ result,
      step { localId := {}, srvList := [] } {} (.rpcRequestVote { term := 2 }) = some result :=
    ⟨_, rfl⟩
  obtain ⟨result, taken⟩ := enabled
  exact ⟨result, taken, (adoptsTerm_iff taken rfl (by decide)).mpr (.inl rfl)⟩

/-- A leader of term 1. -/
def leaderOfTermOne : Server :=
  { state := { currentTerm := 1 }, identity := .leader, termTriggered := 1 }

/-- A leader of term 1 that gets an append request of term 2 stays in term 1. -/
theorem adoptsTerm_counterexample :
    leaderOfTermOne.carriedTerm (.rpcAppendEntries { term := 2 }) = some 2 ∧
      leaderOfTermOne.state.currentTerm < 2 ∧
      ∃ result,
        step { localId := {}, srvList := [] } leaderOfTermOne
          (.rpcAppendEntries { term := 2 }) = some result ∧
        ¬ leaderOfTermOne.AdoptsTerm (.rpcAppendEntries { term := 2 }) 2 result := by
  refine ⟨rfl, by decide, _, rfl, fun adopts => ?_⟩
  have kept := adopts.1
  revert kept
  decide

end Server

end Quintet
