import QuintetRaft.Library.Execution
import QuintetRaft.Model.Threads

/-!
# The loop of `tryAppendEntries`

The loop against one follower that nobody else talks to, turn by turn; and the events that concern
one appending thread while it is in its loop, beside commands that are stored meanwhile.
-/

namespace Quintet

namespace Server

theorem setNode_known (target : ServerId) (node : FollowerNode) (srv : Server) :
    (srv.setNode target node).leader.followerNodes target = some node := by
  simp

theorem setNode_setNode (target : ServerId) (first second : FollowerNode) (srv : Server) :
    (srv.setNode target first).setNode target second = srv.setNode target second := by
  simp [setNode]

/-- The gate of `notify` does not depend on the nodes of the followers. -/
theorem notify_setNode (identity : ServerIdentityNo) (term : Nat) (target : ServerId)
    (node : FollowerNode) (srv : Server) :
    (srv.setNode target node).notify identity term =
      (srv.notify identity term).setNode target node := by
  by_cases opens : srv.accepts term
  · have opens' : (srv.setNode target node).accepts term := opens
    rw [notify, notify, if_pos opens, if_pos opens']
    rfl
  · have closed : ¬ (srv.setNode target node).accepts term := opens
    rw [notify, notify, if_neg opens, if_neg closed]

/-- What the thread makes of a reply does not depend on the phase the node is in. -/
theorem receiveAppendReply_setNode (srv : Server) (target : ServerId) (node : FollowerNode)
    (thread : AppendingThread) (oldMatchIdx retryTimes : Nat) (msg : AppendEntriesMessage)
    (reply : Reply) :
    (srv.setNode target { node with appendingThread := thread }).receiveAppendReply target
        { node with appendingThread := thread } oldMatchIdx retryTimes msg reply =
      srv.receiveAppendReply target node oldMatchIdx retryTimes msg reply := by
  simp only [receiveAppendReply, setNode_state]
  split_ifs
  · exact setNode_setNode ..
  · exact (congrArg (finishAppending target node)
      (notify_setNode .follower reply.1 target _ { srv with state.currentTerm := reply.1 })).trans
      (setNode_setNode ..)
  · exact setNode_setNode ..
  · exact setNode_setNode ..

end Server

/-! ## Against one follower -/

/-- A leader and one of its followers. -/
structure Exchange where
  /-- The leader, whose appending thread runs the loop. -/
  leader : Server
  /-- The follower, which handles the requests. -/
  follower : Server

namespace Exchange

/-- One turn of the loop: the thread builds its message, `IdentityFollower` handles it, and the
thread gets the reply.  There is none when the thread is not at the head of the loop. -/
def turn (info : ServerInfo) (target : ServerId) (exchange : Exchange) : Option Exchange :=
  match exchange.leader.leader.followerNodes target with
  | some node =>
      match node.appendingThread with
      | .trying oldMatchIdx retryTimes =>
          (exchange.leader.createAppendEntriesMessage info node.nextIdx).map fun msg =>
            let handled := exchange.follower.followerAppendEntries msg
            { leader := exchange.leader.receiveAppendReply target node oldMatchIdx retryTimes msg
                handled.2.1
              follower := handled.1 }
      | _ => none
  | none => none

/-- The loop, as a step function that leaves no choice. -/
def step (info : ServerInfo) (target : ServerId) (exchange : Exchange) (_ : Unit) :
    Option Exchange :=
  exchange.turn info target

variable {info infoFollower : ServerInfo} {target : ServerId} {before after : Exchange}
  {node : FollowerNode} {oldMatchIdx retryTimes : Nat} {msg : AppendEntriesMessage}

theorem turn_of_trying (known : before.leader.leader.followerNodes target = some node)
    (trying : node.appendingThread = .trying oldMatchIdx retryTimes)
    (built : before.leader.createAppendEntriesMessage info node.nextIdx = some msg) :
    before.turn info target =
      some
        { leader := before.leader.receiveAppendReply target node oldMatchIdx retryTimes msg
            (before.follower.followerAppendEntries msg).2.1
          follower := (before.follower.followerAppendEntries msg).1 } := by
  simp only [turn, known, trying, built, Option.map_some]

/-- A turn is three steps of the two servers: the leader sends a message, the follower answers it,
and the leader gets the answer. -/
theorem steps_of_turn (taken : before.turn info target = some after)
    (role : before.follower.identity = .follower)
    (idle : before.follower.leader.addingLog = none) :
    ∃ (msg : AppendEntriesMessage) (reply : Reply) (sends : Server) (handed : List Output),
      before.leader.step info (.sendAppendEntries target) =
        some (sends, [.appendEntries target msg]) ∧
      before.follower.step infoFollower (.rpcAppendEntries msg) =
        some (after.follower, handed ++ [.appendReply msg reply]) ∧
      sends.step info (.receiveAppendReply target msg reply) = some (after.leader, []) := by
  unfold turn at taken
  cases known : before.leader.leader.followerNodes target with
  | none => simp [known] at taken
  | some node =>
      cases trying : node.appendingThread with
      | trying oldMatchIdx retryTimes =>
          simp only [known, trying] at taken
          obtain ⟨msg, built, rfl⟩ := Option.map_eq_some_iff.mp taken
          let sending : FollowerNode :=
            { node with appendingThread := .sending oldMatchIdx retryTimes msg }
          refine ⟨msg, (before.follower.followerAppendEntries msg).2.1,
            before.leader.setNode target sending,
            (before.follower.followerAppendEntries msg).2.2, ?_, ?_, ?_⟩
          · exact Server.step_sendAppendEntries.mpr
              ⟨node, oldMatchIdx, retryTimes, msg, known, trying, built, rfl⟩
          · refine Server.step_rpcAppendEntries.mpr ⟨idle, ?_⟩
            simp only [Server.rpcAppendEntries, role]
          · refine Server.step_receiveAppendReply.mpr
              ⟨sending, oldMatchIdx, retryTimes, by simp, rfl, ?_⟩
            rw [Server.receiveAppendReply_setNode]
      | _ => simp [known, trying] at taken

end Exchange

/-! ## With arbitrary replies -/

/-- An event of the appending thread of one follower up to the end of its loop, or a command that is
stored meanwhile. -/
def Event.InLoop (target : ServerId) : Event → Prop
  | .sendAppendEntries other | .failAppendEntries other | .interruptAppending other
  | .receiveAppendReply other _ _ => other = target
  | .rpcAddLog _ | .addLogState => True
  | _ => False

/-- The thread sends a request, or gets the outcome of one. -/
def Event.Proceeds (target : ServerId) : Event → Prop
  | .sendAppendEntries other | .failAppendEntries other | .receiveAppendReply other _ _ =>
      other = target
  | _ => False

/-- The event sends a request to the follower. -/
def Event.sends (target : ServerId) (event : Event) : Bool := event = .sendAppendEntries target

namespace Server

/-- A step of a server whose outputs are not looked at. -/
def move (info : ServerInfo) (srv : Server) (event : Event) : Option Server :=
  (srv.step info event).map Prod.fst

theorem move_eq_some {info : ServerInfo} {before after : Server} {event : Event} :
    before.move info event = some after ↔
      ∃ sent, before.step info event = some (after, sent) := by
  simp [move]

end Server

end Quintet
