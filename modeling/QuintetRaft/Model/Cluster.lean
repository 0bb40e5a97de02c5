import Mathlib.Data.List.Nodup
import QuintetRaft.Model.Raft

/-!
# The cluster

Servers exchange RPCs over a network that may delay, lose, reorder and repeat: a request may be
handled at any time after it was sent, and a reply may arrive at any time after it was given, or
never.
-/

namespace Quintet

/-- The servers of a cluster, which all know the same list. -/
structure ClusterConfig where
  /-- All servers. -/
  srvList : List ServerId
  /-- No server is listed twice. -/
  nodup : srvList.Nodup
  /-- The null identifier names no server. -/
  null_notMem : nullServerId ∉ srvList

/-- What one server knows of the cluster. -/
def ClusterConfig.info (config : ClusterConfig) (localId : ServerId) : ServerInfo :=
  { localId, srvList := config.srvList }

/-- A server of a cluster that runs on one machine. -/
def localServer (port : Port) : ServerId := { addr := "localhost", port }

/-- Three servers on one machine. -/
def trio : ClusterConfig where
  srvList := [localServer 1, localServer 2, localServer 3]
  nodup := by decide
  null_notMem := by decide

/-- One server that is a cluster by itself. -/
def alone : ServerInfo := { localId := localServer 1, srvList := [localServer 1] }

/-- The state of all servers. -/
abbrev Cluster := ServerId → Node

namespace Cluster

/-- Every server starts as a follower with an empty log. -/
def init : Cluster := fun _ => {}

/-- The message or reply an event consumes has been sent to `self`. -/
def Delivered (cluster : Cluster) (self : ServerId) : Event → Prop
  | .rpcRequestVote msg => .requestVote self msg ∈ (cluster msg.candidateId).sent
  | .rpcAppendEntries msg => .appendEntries self msg ∈ (cluster msg.leaderId).sent
  | .receiveVote target msg reply => .voteReply msg reply ∈ (cluster target).sent
  | .receiveAppendReply target msg reply => .appendReply msg reply ∈ (cluster target).sent
  | _ => True

instance (cluster : Cluster) (self : ServerId) :
    (event : Event) → Decidable (cluster.Delivered self event)
  | .rpcRequestVote _ | .rpcAppendEntries _ | .receiveVote _ _ _ | .receiveAppendReply _ _ _ =>
      inferInstanceAs (Decidable (_ ∈ _))
  | .rpcAddLog _ | .addLogState | .timeout | .transform | .startAppending _
  | .interruptAppending _ | .sendAppendEntries _ | .failAppendEntries _ | .countReplica _ =>
      .isTrue trivial

/-- One step of the cluster: one event at one server. -/
def step (config : ClusterConfig) (cluster : Cluster) (label : ServerId × Event) :
    Option Cluster :=
  if label.1 ∈ config.srvList ∧ cluster.Delivered label.1 label.2 then
    ((cluster label.1).step (config.info label.1) label.2).map fun node =>
      Function.update cluster label.1 node
  else
    none

variable {config : ClusterConfig} {before after : Cluster} {label : ServerId × Event}

/-- A cluster step is a step of one server, all others being left alone. -/
theorem step_eq_some :
    step config before label = some after ↔
      label.1 ∈ config.srvList ∧ before.Delivered label.1 label.2 ∧
        ∃ result, (before label.1).server.step (config.info label.1) label.2 = some result ∧
          after = Function.update before label.1
            { server := result.1, sent := (before label.1).sent ++ result.2 } := by
  simp only [step, Node.step]
  split_ifs with allowed
  · obtain ⟨listed, delivered⟩ := allowed
    simp [Option.map_eq_some_iff, listed, delivered, eq_comm (b := after)]
  · simp only [false_iff]
    rintro ⟨listed, delivered, -⟩
    exact allowed ⟨listed, delivered⟩

/-- What holds of the other nodes before a step, and of the acting node after it, holds of all
nodes after it. -/
theorem forall_step (taken : step config before label = some after)
    (property : ServerId → Node → Prop) (others : ∀ id, id ≠ label.1 → property id (before id))
    (acting : ∀ result, before.Delivered label.1 label.2 →
      (before label.1).server.step (config.info label.1) label.2 = some result →
      property label.1 { server := result.1, sent := (before label.1).sent ++ result.2 })
    (id : ServerId) : property id (after id) := by
  obtain ⟨-, delivered, result, moved, rfl⟩ := step_eq_some.mp taken
  by_cases same : id = label.1
  · subst same
    rw [Function.update_self]
    exact acting result delivered moved
  · rw [Function.update_of_ne same]
    exact others id same

/-- Nothing that was sent is forgotten. -/
theorem sent_mono (taken : step config before label = some after) {id : ServerId}
    {output : Output} (member : output ∈ (before id).sent) : output ∈ (after id).sent :=
  forall_step taken (fun id node => output ∈ (before id).sent → output ∈ node.sent)
    (fun _ _ earlier => earlier) (fun _ _ _ earlier => List.mem_append_left _ earlier) id member

/-- What a server has sent after a step was sent before, or is sent by it in the step. -/
theorem sent_cases (taken : step config before label = some after) {id : ServerId}
    {output : Output} (member : output ∈ (after id).sent) :
    output ∈ (before id).sent ∨
      id = label.1 ∧ before.Delivered label.1 label.2 ∧ ∃ result,
        (before label.1).server.step (config.info label.1) label.2 = some result ∧
          output ∈ result.2 :=
  forall_step taken
    (fun id node => output ∈ node.sent → output ∈ (before id).sent ∨
      id = label.1 ∧ before.Delivered label.1 label.2 ∧ ∃ result,
        (before label.1).server.step (config.info label.1) label.2 = some result ∧
          output ∈ result.2)
    (fun _ _ earlier => .inl earlier)
    (fun result delivered moved sent => (List.mem_append.mp sent).imp_right fun new =>
      ⟨rfl, delivered, result, moved, new⟩) id member

end Cluster

end Quintet
