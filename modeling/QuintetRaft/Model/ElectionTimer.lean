import QuintetRaft.Model.Cluster
import QuintetRaft.Model.Stopping

/-!
# One-shot election timers

The servers of a cluster with the timers of their heartbeat controllers.  The thread of an election
timer fires once: it runs from `init` of a follower or candidate, or from a `restart` in one of
their handlers, until it has called back or `leave` stops it.
-/

namespace Quintet

/-- The servers of a cluster with their election timers. -/
structure TimedCluster where
  /-- The servers. -/
  nodes : Cluster := Cluster.init
  /-- The election timer of a server runs. -/
  armed : ServerId → Bool := fun _ => true

namespace TimedCluster

/-- Whether the election timer of a server runs after an event. -/
def armedAfter (before after : Server) (armed : Bool) : Event → Bool
  | .timeout => false
  -- `leave` stops it, and `init` of these two starts it
  | .transform => after.identity = .follower ∨ after.identity = .candidate
  | event => armed || before.restartsTimer event

/-- One step of the cluster, in which only timers that run may fire. -/
def step (config : ClusterConfig) (timed : TimedCluster) (label : ServerId × Event) :
    Option TimedCluster :=
  if label.2 = .timeout → timed.armed label.1 then
    (Cluster.step config timed.nodes label).map fun nodes =>
      { nodes
        armed := Function.update timed.armed label.1
          (armedAfter (timed.nodes label.1).server (nodes label.1).server (timed.armed label.1)
            label.2) }
  else none

theorem step_eq_some {config : ClusterConfig} {before after : TimedCluster}
    {label : ServerId × Event} :
    step config before label = some after ↔
      (label.2 = .timeout → before.armed label.1) ∧
        Cluster.step config before.nodes label = some after.nodes ∧
          after.armed = Function.update before.armed label.1
            (armedAfter (before.nodes label.1).server (after.nodes label.1).server
              (before.armed label.1) label.2) := by
  obtain ⟨nodes, armed⟩ := after
  rw [step, Option.ite_none_right_eq_some, Option.map_eq_some_iff]
  refine and_congr_right fun _ => ⟨?_, ?_⟩
  · rintro ⟨_, moved, same⟩
    obtain ⟨rfl, rfl⟩ := TimedCluster.mk.inj same
    exact ⟨moved, rfl⟩
  · rintro ⟨moved, same⟩
    exact ⟨nodes, moved, congrArg _ same.symm⟩

/-- A step of the cluster is one with timers when the timer that fires runs. -/
theorem exists_step {config : ClusterConfig} {before : TimedCluster} {label : ServerId × Event}
    {nodes : Cluster} (timely : label.2 = .timeout → before.armed label.1)
    (moved : Cluster.step config before.nodes label = some nodes) :
    ∃ after, step config before label = some after ∧ after.nodes = nodes :=
  ⟨_, (if_pos timely).trans (Option.map_eq_some_iff.mpr ⟨nodes, moved, rfl⟩), rfl⟩

end TimedCluster

end Quintet
