import QuintetRaft.Model.Interface

/-!
# The threads of `addLog`

`Interface::addLog` of `Interface.cpp` with the threads that it starts.  A thread goes through the
list of servers with an iterator, again and again, and offers its command to one server after the
other until one of them answers with success.  A server that has been called may handle the command
later, also when the call has failed.  `Interface::Shutdown` interrupts the threads inside
`callRpcAddLog`, so that they end without an answer; this is no event here.
-/

namespace Quintet

/-- A thread that `Interface::addLog` has started. -/
structure AddLogThread where
  /-- The command. -/
  msg : AddLogMessage
  /-- The servers from the iterator to the end of the list. -/
  iter : List ServerId
  /-- The servers that have been called, oldest first. -/
  called : List ServerId := []
  /-- The call to the last of them has not returned. -/
  waiting : Bool := false
  /-- The thread has returned. -/
  returned : Bool := false
  deriving DecidableEq, Repr

namespace AddLogThread

/-- The iterator stands at the beginning. -/
def start (srvList : List ServerId) (msg : AddLogMessage) : AddLogThread := { msg, iter := srvList }

/-- The top of the loop: the next server is called.  Behind the last server there is nothing that
could be called. -/
def callRpcAddLog (thread : AddLogThread) : Option AddLogThread :=
  if thread.waiting ∨ thread.returned then none
  else
    match thread.iter with
    | [] => none
    | srv :: iter =>
        some { thread with iter, called := thread.called ++ [srv], waiting := true }

/-- The rest of the loop; a call that throws counts as refused. -/
def finish (srvList : List ServerId) (reply : Option AddLogReply) (thread : AddLogThread) :
    Option AddLogThread :=
  if thread.waiting then
    if reply.any AddLogReply.success then some { thread with waiting := false, returned := true }
    else
      some { thread with
        waiting := false
        iter := if thread.iter = [] then srvList else thread.iter }
  else none

end AddLogThread

/-- The cluster and the interfaces with the threads of `addLog`. -/
structure Offering (Any : Type) where
  /-- The cluster and the interfaces. -/
  system : System Any
  /-- The threads, in the order in which they were started. -/
  threads : List AddLogThread := []

/-- What can happen. -/
inductive OfferAction
  /-- A client of a server makes a call. -/
  | asyncCall (id : ServerId) (opName args : ByteString)
  /-- A server takes a step. -/
  | raft (label : ServerId × Event)
  /-- The application of a server handles the next entry handed to it. -/
  | apply (id : ServerId)
  /-- A thread calls the next server. -/
  | call (thread : ℕ)
  /-- A thread gets the answer of the server that it has called. -/
  | reply (thread : ℕ) (reply : AddLogReply)
  /-- Its call fails. -/
  | fail (thread : ℕ)
  deriving DecidableEq

namespace Offering

variable {Any : Type} (config : ClusterConfig)

/-- No call has been made. -/
def init (fs : ServerId → ByteString → Option (ByteString → Any)) : Offering Any :=
  { system := System.init fs }

/-- A thread has called a server with the command. -/
def Offered (offering : Offering Any) (server : ServerId) (msg : AddLogMessage) : Prop :=
  ∃ thread ∈ offering.threads, thread.msg = msg ∧ server ∈ thread.called

instance (offering : Offering Any) (server : ServerId) (msg : AddLogMessage) :
    Decidable (offering.Offered server msg) :=
  inferInstanceAs (Decidable (∃ _ ∈ _, _))

/-- A thread gets an answer. -/
def answer (id : ℕ) (reply : AddLogReply) (thread : AddLogThread) (offering : Offering Any) :
    Option (Offering Any) := do
  let server ← thread.called.getLast?
  let after ← thread.finish config.srvList (some reply)
  if .addLogReply thread.msg reply ∈ (offering.system.cluster server).sent then
    some
      { system :=
          if reply.success then
            { offering.system with returned := offering.system.returned ++ [thread.msg] }
          else offering.system
        threads := offering.threads.set id after }
  else none

/-- One step; a server handles commands that it has been called with. -/
def step (offering : Offering Any) : OfferAction → Option (Offering Any)
  | .asyncCall id opName args =>
      (offering.system.step config (.asyncCall id opName args)).map fun system =>
        let msg := ((offering.system.interfaces id).asyncCall id opName args).2
        { system, threads := offering.threads ++ [.start config.srvList msg] }
  | .raft label =>
      if ∀ msg ∈ label.2.command, offering.Offered label.1 msg then
        (offering.system.step config (.raft label)).map fun system => { offering with system }
      else none
  | .apply id =>
      (offering.system.step config (.apply id)).map fun system => { offering with system }
  | .call id => do
      let thread ← offering.threads[id]?
      let after ← thread.callRpcAddLog
      some { offering with threads := offering.threads.set id after }
  | .reply id reply => do
      let thread ← offering.threads[id]?
      offering.answer config id reply thread
  | .fail id => do
      let thread ← offering.threads[id]?
      let after ← thread.finish config.srvList none
      some { offering with threads := offering.threads.set id after }

end Offering

end Quintet
