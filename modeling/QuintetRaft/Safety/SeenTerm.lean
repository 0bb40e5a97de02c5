import QuintetRaft.Safety.Election

/-!
# The greatest term a server has seen

An accepted append request does not change `currentTerm`, so a server may know of a later term than
the one it is in.  The steps on which no server acts in a term behind what it has seen, grants a
vote without the log test, or commits what it should not, are singled out here.
-/

namespace Quintet

/-- The term of an append request that the output accepts. -/
def Output.acceptedTerm : Output → Option Nat
  | .appendReply msg reply => if reply.2 then some msg.term else none
  | _ => none

namespace Node

/-- The current term, or the greatest term of an accepted append request when that is later. -/
def seenTerm (node : Node) : Nat :=
  (node.sent.filterMap Output.acceptedTerm).foldr max node.server.state.currentTerm

theorem foldr_max_le {terms : List Nat} {first bound : Nat} :
    terms.foldr max first ≤ bound ↔ first ≤ bound ∧ ∀ term ∈ terms, term ≤ bound := by
  induction terms with
  | nil => simp
  | cons term terms ih =>
      rw [List.foldr_cons, Nat.max_le, ih, List.forall_mem_cons]
      constructor
      · exact fun ⟨head, start, rest⟩ => ⟨start, head, rest⟩
      · exact fun ⟨start, head, rest⟩ => ⟨head, start, rest⟩

theorem seenTerm_le_iff {node : Node} {bound : Nat} :
    node.seenTerm ≤ bound ↔ node.server.state.currentTerm ≤ bound ∧
      ∀ term ∈ node.sent.filterMap Output.acceptedTerm, term ≤ bound :=
  foldr_max_le

theorem currentTerm_le_seenTerm (node : Node) :
    node.server.state.currentTerm ≤ node.seenTerm :=
  (seenTerm_le_iff.mp (Nat.le_refl _)).1

/-- The node after a step of its server. -/
abbrev next (node : Node) (result : Server × List Output) : Node :=
  { server := result.1, sent := node.sent ++ result.2 }

/-- The steps on which a server acts in no term behind what it has seen. -/
def Steady (info : ServerInfo) (node : Node) : Event → Prop
  | .rpcRequestVote msg =>
      -- a vote passes the log test, also in a term greater than the current one
      node.server.Serving → node.seenTerm ≤ msg.term ∧
        (node.server.state.currentTerm < msg.term →
          upToDate node.server.state msg.lastLogIdx msg.lastLogTerm)
  | .rpcAppendEntries msg =>
      -- neither `checkRpcTerm` nor an accepted request goes back to an earlier term
      (node.server.identity = .candidate ∨ node.server.identity = .leader →
          node.server.state.currentTerm ≤ msg.term) ∧
        (node.server.Accepts msg → node.seenTerm ≤ msg.term)
  | .rpcAddLog msg =>
      node.server.identity = .leader → ¬ Server.holdsOperation node.server.state msg →
        node.server.leader.initTerm = node.seenTerm
  | .transform =>
      ∀ request ∈ node.server.events.head?,
        (request.1 = .candidate →
          node.seenTerm < incrementTerm node.server.state.currentTerm) ∧
        (request.1 = .leader → request.2 = node.seenTerm)
  | .sendAppendEntries _ => node.server.leader.initTerm = node.seenTerm
  | .countReplica target =>
      ¬ node.server.CountsUnsent (.countReplica target) ∧
        ¬ node.server.CommitsOtherTerm info (.countReplica target)
  | _ => True

instance (info : ServerInfo) (node : Node) : (event : Event) → Decidable (node.Steady info event)
  | .rpcRequestVote _ => inferInstanceAs (Decidable (_ → _ ∧ (_ → _)))
  | .rpcAppendEntries _ => inferInstanceAs (Decidable ((_ → _) ∧ (_ → _)))
  | .rpcAddLog _ => inferInstanceAs (Decidable (_ → _ → _))
  | .transform => inferInstanceAs (Decidable (∀ _ ∈ _, (_ → _) ∧ (_ → _)))
  | .sendAppendEntries _ => inferInstanceAs (Decidable (_ = _))
  | .countReplica _ => inferInstanceAs (Decidable (_ ∧ _))
  | .addLogState | .timeout | .receiveVote .. | .startAppending _ | .interruptAppending _
  | .failAppendEntries _ | .receiveAppendReply .. => .isTrue trivial

section Step

variable {info : ServerInfo} {node : Node} {event : Event} {result : Server × List Output}

/-- A steady step neither lowers nor wraps a term. -/
theorem Steady.keeps (steady : node.Steady info event) :
    ¬ node.server.LowersTerm event ∧ ¬ node.server.WrapsTerm event := by
  have known := node.currentTerm_le_seenTerm
  refine ⟨?_, ?_⟩
  · rintro (⟨msg, asked, serving, lower⟩ | ⟨msg, asked, role, lower⟩)
    · cases event with
      | rpcRequestVote request =>
          obtain rfl : request = msg := by simpa [Event.voteRequest] using asked
          have upTo := (steady serving).1
          omega
      | _ => simp [Event.voteRequest] at asked
    · cases event with
      | rpcAppendEntries request =>
          obtain rfl : request = msg := by simpa [Event.appendRequest] using asked
          have upTo := steady.1 role
          omega
      | _ => simp [Event.appendRequest] at asked
  · rintro ⟨rfl, stands, wide⟩
    obtain ⟨request, queued, target⟩ := Option.map_eq_some_iff.mp stands
    have later := (steady request queued).1 target
    unfold incrementTerm at later
    have small := Nat.mod_lt (node.server.state.currentTerm + 1)
      (show 0 < termModulus by decide)
    omega

/-- The greatest term seen after an event that ends in a term. -/
def seenAfter (node : Node) (currentTerm : Nat) : Event → Nat
  | .rpcAppendEntries msg => if node.server.Accepts msg then msg.term else node.seenTerm
  | _ => max node.seenTerm currentTerm

/-- Only the answer to an append request can accept a term. -/
theorem acceptedTerm_of_step (taken : node.server.step info event = some result) {term : Nat}
    (member : term ∈ result.2.filterMap Output.acceptedTerm) :
    ∃ msg, event = .rpcAppendEntries msg ∧ node.server.Accepts msg ∧ term = msg.term := by
  obtain ⟨output, sent, accepts⟩ := List.mem_filterMap.mp member
  have emitted := Server.step_emits taken sent
  cases output with
  | appendReply msg reply =>
      obtain ⟨handles, rfl⟩ := emitted
      simp only [Output.acceptedTerm, Server.rpcAppendEntries_reply] at accepts
      split_ifs at accepts with success
      exact ⟨msg, handles, of_decide_eq_true success, (Option.some.inj accepts).symm⟩
  | _ => simp [Output.acceptedTerm] at accepts

/-- An accepted append request is answered. -/
theorem acceptedTerm_mem {msg : AppendEntriesMessage}
    (taken : node.server.step info (.rpcAppendEntries msg) = some result)
    (accepts : node.server.Accepts msg) : msg.term ∈ result.2.filterMap Output.acceptedTerm := by
  obtain ⟨-, rfl⟩ := Server.step_rpcAppendEntries.mp taken
  refine List.mem_filterMap.mpr ⟨_, List.mem_append_right _ (List.mem_singleton_self _), ?_⟩
  simp [Output.acceptedTerm, Server.rpcAppendEntries_reply, accepts]

/-- What has been seen after a step is the current term, or a term accepted in the step. -/
theorem seenTerm_next_le_iff (taken : node.server.step info event = some result)
    (steady : node.Steady info event) {bound : Nat} :
    (node.next result).seenTerm ≤ bound ↔
      max node.seenTerm result.1.state.currentTerm ≤ bound ∧
        ∀ term ∈ result.2.filterMap Output.acceptedTerm, term ≤ bound := by
  obtain ⟨keeps, bounded⟩ := steady.keeps
  have grows := Server.step_currentTerm_le taken keeps bounded
  rw [seenTerm_le_iff, Nat.max_le, seenTerm_le_iff, List.filterMap_append]
  simp only [List.forall_mem_append]
  constructor
  · rintro ⟨now, old, new⟩
    exact ⟨⟨⟨by omega, old⟩, now⟩, new⟩
  · rintro ⟨⟨⟨-, old⟩, now⟩, new⟩
    exact ⟨now, old, new⟩

/-- The greatest term seen after a step. -/
theorem seenTerm_step (taken : node.server.step info event = some result)
    (steady : node.Steady info event) :
    (node.next result).seenTerm = node.seenAfter result.1.state.currentTerm event := by
  have known := node.currentTerm_le_seenTerm
  refine eq_of_forall_ge_iff fun bound => ?_
  rw [seenTerm_next_le_iff taken steady]
  cases event with
  | rpcAppendEntries msg =>
      have same : result.1.state.currentTerm ≤ node.server.state.currentTerm := by
        rw [Server.step_currentTerm taken, Server.termAfter]
        split_ifs
        · exact Nat.min_le_left _ _
        · exact Nat.le_refl _
      rw [seenAfter]
      split_ifs with accepts
      · have upTo := steady.2 accepts
        constructor
        · rintro ⟨-, new⟩
          exact new _ (acceptedTerm_mem taken accepts)
        · refine fun below => ⟨by omega, fun term member => ?_⟩
          obtain ⟨other, handles, -, rfl⟩ := acceptedTerm_of_step taken member
          cases handles
          exact below
      · constructor
        · rintro ⟨both, -⟩
          omega
        · refine fun below => ⟨by omega, fun term member => ?_⟩
          obtain ⟨other, handles, accepts', -⟩ := acceptedTerm_of_step taken member
          cases handles
          exact absurd accepts' accepts
  | _ =>
      refine and_iff_left fun term member => ?_
      obtain ⟨_, handles, -, -⟩ := acceptedTerm_of_step taken member
      simp at handles

end Step

end Node

namespace Cluster

/-- The acting server acts in no term behind what it has seen. -/
def Steady (config : ClusterConfig) (before : Cluster) (label : ServerId × Event)
    (_ : Cluster) : Prop :=
  (before label.1).Steady (config.info label.1) label.2

instance (config : ClusterConfig) (before : Cluster) (label : ServerId × Event)
    (after : Cluster) : Decidable (Steady config before label after) :=
  inferInstanceAs (Decidable ((before label.1).Steady _ _))

variable {config : ClusterConfig} {before after cluster : Cluster} {label : ServerId × Event}

/-- A server that has been elected in a term has seen it. -/
theorem SenderRecord.elected_le (record : SenderRecord config cluster) {id : ServerId}
    (listed : id ∈ config.srvList) {term : Nat}
    (elected : Elected (config.info id) (cluster.voted id) term) :
    term ≤ (cluster id).server.state.currentTerm :=
  (record.votes id listed).bounded term id elected.2

/-- A leader that has seen no later term than the one it took office in is still in it. -/
theorem SenderRecord.initTerm_eq (record : SenderRecord config cluster) {id : ServerId}
    (listed : id ∈ config.srvList) (role : (cluster id).server.identity = .leader)
    (current : (cluster id).server.leader.initTerm = (cluster id).seenTerm) :
    (cluster id).server.leader.initTerm = (cluster id).server.state.currentTerm := by
  have reached := record.elected_le listed ((record.campaign id).office role)
  have known := (cluster id).currentTerm_le_seenTerm
  omega

/-- A steady step elects safely. -/
theorem Steady.electsSafely (steady : Steady config before label after)
    (record : SenderRecord config before) (taken : step config before label = some after) :
    ElectsSafely before label after := by
  obtain ⟨listed, -, result, moved, -⟩ := step_eq_some.mp taken
  obtain ⟨id, event⟩ := label
  have known := (before id).currentTerm_le_seenTerm
  refine ⟨Node.Steady.keeps steady, ?_, ?_⟩
  · rintro ⟨moves, request, queued, takes, other⟩
    obtain rfl : event = .transform := moves
    have seen := (steady request queued).2 takes
    have member : (ServerIdentityNo.leader, request.2) ∈ (before id).server.events := by
      rw [← takes]
      exact List.mem_of_head? queued
    have reached := record.elected_le listed ((record.campaign id).queued _ member)
    dsimp only at other reached known seen
    omega
  · rintro ⟨sends, other⟩
    cases event with
    | sendAppendEntries target =>
        obtain ⟨node, _, _, _, present, -⟩ := Server.step_sendAppendEntries.mp moved
        exact other (record.initTerm_eq listed ((record.tidy _).role_of_known present) steady)
    | _ => exact sends rfl

end Cluster

end Quintet
