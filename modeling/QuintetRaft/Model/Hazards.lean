import QuintetRaft.Model.Appending
import QuintetRaft.Model.Outputs

/-!
# Hazardous steps

The branches of the code on which a server departs from the protocol it implements, as decidable
conditions on the server and the event it is about to process.
-/

namespace Quintet

namespace Event

/-- The vote request an event handles. -/
def voteRequest : Event → Option RequestVoteMessage
  | .rpcRequestVote msg => some msg
  | _ => none

/-- The append request an event handles. -/
def appendRequest : Event → Option AppendEntriesMessage
  | .rpcAppendEntries msg => some msg
  | _ => none

/-- The follower whose replicas an event counts. -/
def counting : Event → Option ServerId
  | .countReplica target => some target
  | _ => none

/-- The command an event handles. -/
def command : Event → Option AddLogMessage
  | .rpcAddLog msg => some msg
  | _ => none

/-- The reply to an append request an event handles. -/
def appendReply : Event → Option Reply
  | .receiveAppendReply _ _ reply => some reply
  | _ => none

/-- The follower an event sends an append request to. -/
def sending : Event → Option ServerId
  | .sendAppendEntries target => some target
  | _ => none

end Event

namespace Server

/-- `checkRpcTerm` takes its branch: an RPC carries a smaller term than `currentTerm`. -/
def LowersTerm (srv : Server) (event : Event) : Prop :=
  (∃ msg ∈ event.voteRequest, srv.Serving ∧ msg.term < srv.state.currentTerm) ∨
    ∃ msg ∈ event.appendRequest,
      (srv.identity = .candidate ∨ srv.identity = .leader) ∧ msg.term < srv.state.currentTerm

/-- A candidacy increments the greatest value of the 64-bit type `Term`. -/
def WrapsTerm (srv : Server) (event : Event) : Prop :=
  event = .transform ∧ srv.nextTarget = some .candidate ∧
    termModulus ≤ srv.state.currentTerm + 1

/-- A vote request of a greater term comes from a candidate with a less recent log. -/
def GrantsUnchecked (srv : Server) (event : Event) : Prop :=
  ∃ msg ∈ event.voteRequest, srv.Serving ∧ srv.state.currentTerm < msg.term ∧
    ¬ upToDate srv.state msg.lastLogIdx msg.lastLogTerm

/-- A vote request names no server. -/
def NamesNobody (event : Event) : Prop :=
  ∃ msg ∈ event.voteRequest, msg.candidateId = nullServerId

/-- An append request of a greater term is processed in the old term. -/
def KeepsOldTerm (srv : Server) (event : Event) : Prop :=
  ∃ msg ∈ event.appendRequest, srv.Serving ∧ srv.state.currentTerm < msg.term

/-- A server becomes leader when `currentTerm` is no longer the term it won. -/
def TakesOtherTerm (srv : Server) (event : Event) : Prop :=
  event = .transform ∧
    ∃ request ∈ srv.events.head?, request.1 = .leader ∧ request.2 ≠ srv.state.currentTerm

/-- A leader builds a message when `currentTerm` is no longer the term it took office in. -/
def SendsOtherTerm (srv : Server) (event : Event) : Prop :=
  event.sending ≠ none ∧ srv.leader.initTerm ≠ srv.state.currentTerm

/-- A leader stores a command when `currentTerm` is no longer the term it took office in. -/
def AddsOtherTerm (srv : Server) (event : Event) : Prop :=
  event.command ≠ none ∧ srv.identity = .leader ∧
    srv.leader.initTerm ≠ srv.state.currentTerm

/-- An append request changes the log of a server that has not left the leader identity. -/
def RewritesLeader (srv : Server) (event : Event) : Prop :=
  event.appendRequest ≠ none ∧ srv.identity = .leader ∧
    srv.entriesAfter event ≠ srv.state.entries

/-- The counting loop runs past the last index the follower has acknowledged. -/
def CountsUnsent (srv : Server) (event : Event) : Prop :=
  ∃ target ∈ event.counting, ∃ node ∈ srv.leader.followerNodes target,
    ∃ idx ∈ srv.countedIdx target, node.matchIdx < idx

/-- The counting loop raises the commit index to an entry of another term than the one its leader
took office in. -/
def CommitsOtherTerm (info : ServerInfo) (srv : Server) (event : Event) : Prop :=
  ∃ target ∈ event.counting, ∃ idx ∈ srv.countedIdx target, srv.Commits info target idx ∧
    srv.state.commitIdx < idx ∧ termAt srv.state.entries idx ≠ some srv.leader.initTerm

/-- The counting loop raises the commit index in another term than the one its leader took office
in, or to an index outside the part of the log its leader has added. -/
def CommitsInherited (info : ServerInfo) (srv : Server) (event : Event) : Prop :=
  ∃ target ∈ event.counting, ∃ idx ∈ srv.countedIdx target, srv.Commits info target idx ∧
    srv.state.commitIdx < idx ∧
    ¬ (srv.leader.initTerm = srv.state.currentTerm ∧ srv.leader.initSize ≤ idx ∧
      idx < srv.state.entries.length)

/-- An accepted append request carries an entry of another term for a committed position. -/
def CutsCommitted (srv : Server) (event : Event) : Prop :=
  ∃ msg ∈ event.appendRequest, srv.Accepts msg ∧ ∃ idx < msg.logEntries.length,
    ¬ AgreesAt srv.state.entries msg idx ∧ msg.prevLogIdx + 1 + idx ≤ srv.state.commitIdx

/-- The counting loop reaches a majority at an index past the end of the log. -/
def CommitsUnlogged (info : ServerInfo) (srv : Server) (event : Event) : Prop :=
  ∃ target ∈ event.counting, ∃ idx ∈ srv.countedIdx target, srv.Commits info target idx ∧
    srv.state.entries.length ≤ idx

/-- A leader accepts an append request that its log conflicts with or does not reach. -/
def OverwritesLeader (srv : Server) (event : Event) : Prop :=
  srv.identity = .leader ∧ ∃ msg ∈ event.appendRequest, srv.Accepts msg ∧
    ∃ idx < msg.logEntries.length, ¬ AgreesAt srv.state.entries msg idx

/-- A follower rejects a message that starts right after the last entry it has acknowledged. -/
def RetractsMatch (srv : Server) : Event → Prop
  | .receiveAppendReply target _ reply =>
      reply.2 = false ∧ reply.1 ≤ srv.state.currentTerm ∧
        ∃ node ∈ srv.leader.followerNodes target,
          node.nextIdx ≠ 1 ∧ node.nextIdx = node.matchIdx + 1
  | _ => False

/-- A leader's `init` has already made the counter that a suspended `addLog` is about to make. -/
def CountsTwice (srv : Server) (event : Event) : Prop :=
  event = .addLogState ∧ srv.identity = .leader ∧
    srv.state.entries.length ≤ srv.leader.logStates.length

section Decidable

variable (info : ServerInfo) (srv : Server) (event : Event)

instance : Decidable (srv.LowersTerm event) := inferInstanceAs (Decidable (_ ∨ _))
instance : Decidable (srv.WrapsTerm event) := inferInstanceAs (Decidable (_ ∧ _))
instance : Decidable (srv.GrantsUnchecked event) := inferInstanceAs (Decidable (∃ _ ∈ _, _))
instance : Decidable (NamesNobody event) := inferInstanceAs (Decidable (∃ _ ∈ _, _))
instance : Decidable (srv.KeepsOldTerm event) := inferInstanceAs (Decidable (∃ _ ∈ _, _))
instance : Decidable (srv.TakesOtherTerm event) := inferInstanceAs (Decidable (_ ∧ _))
instance : Decidable (srv.SendsOtherTerm event) := inferInstanceAs (Decidable (_ ∧ _))
instance : Decidable (srv.AddsOtherTerm event) := inferInstanceAs (Decidable (_ ∧ _))
instance : Decidable (srv.RewritesLeader event) := inferInstanceAs (Decidable (_ ∧ _))
instance : Decidable (srv.CountsUnsent event) := inferInstanceAs (Decidable (∃ _ ∈ _, _))
instance : Decidable (srv.CommitsOtherTerm info event) :=
  inferInstanceAs (Decidable (∃ _ ∈ _, _))
instance : Decidable (srv.CommitsInherited info event) :=
  inferInstanceAs (Decidable (∃ _ ∈ _, _))
instance : Decidable (srv.CutsCommitted event) := inferInstanceAs (Decidable (∃ _ ∈ _, _))
instance : Decidable (srv.CommitsUnlogged info event) :=
  inferInstanceAs (Decidable (∃ _ ∈ _, _))
instance : Decidable (srv.OverwritesLeader event) := inferInstanceAs (Decidable (_ ∧ _))
instance : (event : Event) → Decidable (srv.RetractsMatch event)
  | .receiveAppendReply .. => inferInstanceAs (Decidable (_ ∧ _))
  | .rpcRequestVote _ | .rpcAppendEntries _ | .rpcAddLog _ | .addLogState | .timeout | .transform
  | .receiveVote .. | .startAppending _ | .interruptAppending _ | .sendAppendEntries _
  | .failAppendEntries _ | .countReplica _ => .isFalse id
instance : Decidable (srv.CountsTwice event) := inferInstanceAs (Decidable (_ ∧ _))

end Decidable

variable {info : ServerInfo} {srv : Server} {event : Event} {result : Server × List Output}

/-- The steps that lower a term are the two kinds named above. -/
theorem termAfter_lt_iff :
    srv.termAfter event < srv.state.currentTerm ↔ srv.LowersTerm event ∨ srv.WrapsTerm event := by
  cases event with
  | rpcRequestVote msg =>
      by_cases serving : srv.Serving <;>
        simp [termAfter, LowersTerm, WrapsTerm, Event.voteRequest, Event.appendRequest, serving]
  | rpcAppendEntries msg =>
      by_cases role : srv.identity = .candidate ∨ srv.identity = .leader <;>
        simp [termAfter, LowersTerm, WrapsTerm, Event.voteRequest, Event.appendRequest, role]
  | transform =>
      by_cases stands : srv.nextTarget = some .candidate
      · have wraps : incrementTerm srv.state.currentTerm < srv.state.currentTerm ↔
            termModulus ≤ srv.state.currentTerm + 1 := by
          unfold incrementTerm termModulus
          omega
        simpa [termAfter, LowersTerm, WrapsTerm, Event.voteRequest, Event.appendRequest, stands]
          using wraps
      · simp [termAfter, LowersTerm, WrapsTerm, Event.voteRequest, Event.appendRequest, stands]
  | receiveAppendReply target msg reply =>
      obtain ⟨term, success⟩ := reply
      cases success <;>
        simp [termAfter, LowersTerm, WrapsTerm, Event.voteRequest, Event.appendRequest]
  | _ => simp [termAfter, LowersTerm, WrapsTerm, Event.voteRequest, Event.appendRequest]

/-- Away from these steps terms never decrease. -/
theorem step_currentTerm_le (taken : step info srv event = some result)
    (keeps : ¬ srv.LowersTerm event) (bounded : ¬ srv.WrapsTerm event) :
    srv.state.currentTerm ≤ result.1.state.currentTerm := by
  rw [step_currentTerm taken]
  have notLower := mt termAfter_lt_iff.mp (not_or.mpr ⟨keeps, bounded⟩)
  omega

/-- A candidacy that does not wrap opens the next term. -/
theorem incrementTerm_eq (bounded : ¬ srv.WrapsTerm .transform)
    (stands : srv.nextTarget = some .candidate) :
    incrementTerm srv.state.currentTerm = srv.state.currentTerm + 1 := by
  have small : ¬ termModulus ≤ srv.state.currentTerm + 1 := fun wide =>
    bounded ⟨rfl, stands, wide⟩
  exact Nat.mod_eq_of_lt (Nat.lt_of_not_le small)

end Server

end Quintet
