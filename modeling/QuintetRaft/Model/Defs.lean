import Mathlib.Data.List.Basic
import QuintetRaft.Library.ByteString

/-!
# Server data and messages

The plain data of `QuintetDefs.h`, `RaftDefs.h`, `RpcDefs.h`, `ServerInfo.h` and `ServerState.h`.
Indices, sizes and counters are natural numbers: none of them can reach the width of a
`std::size_t` before memory runs out.  Terms are natural numbers too, but nothing in the code keeps
a term from growing, so its one increment keeps the wrap-around of the 64-bit type.
-/

namespace Quintet

abbrev Port := UInt16
abbrev PrmIdx := UInt64

/-- Number of values of the 64-bit type `Term`. -/
def termModulus : Nat := 18446744073709551616

/-- `++` on a 64-bit term. -/
def incrementTerm (term : Nat) : Nat := (term + 1) % termModulus

/-- The term no server ever campaigns in. -/
def invalidTerm : Nat := 0

/-- Address of one server of the cluster. -/
structure ServerId where
  /-- Host name. -/
  addr : ByteString := {}
  /-- Listening port. -/
  port : Port := 0
  deriving DecidableEq, Repr

/-- The identifier that names no server. -/
def nullServerId : ServerId := {}

/-- What `Interface` sees of a log entry. -/
structure BasicLogEntry where
  /-- Name of the bound operation. -/
  opName : ByteString
  /-- Serialized arguments. -/
  args : ByteString
  /-- Index of the promise waiting for the result. -/
  prmIdx : PrmIdx
  /-- Server whose client issued the operation. -/
  srvId : ServerId
  deriving DecidableEq, Repr

/-- One entry of the replicated log.  The value `{}` is the sentinel stored at index `0`. -/
structure LogEntry where
  /-- Term of the leader that created the entry. -/
  term : Nat := invalidTerm
  /-- Name of the bound operation. -/
  opName : ByteString := {}
  /-- Serialized arguments. -/
  args : ByteString := {}
  /-- Index of the promise waiting for the result. -/
  prmIdx : PrmIdx := 0
  /-- Server whose client issued the operation. -/
  srvId : ServerId := nullServerId
  deriving DecidableEq, Repr

/-- Forget the term, as `Apply::operator()` does. -/
def LogEntry.toBasic (entry : LogEntry) : BasicLogEntry :=
  { opName := entry.opName
    args := entry.args
    prmIdx := entry.prmIdx
    srvId := entry.srvId }

/-- The roles a server can play. -/
inductive ServerIdentityNo
  | follower | candidate | leader | bogus | down | error
  deriving DecidableEq, Repr

/-- Request replicating a log suffix. -/
structure AppendEntriesMessage where
  /-- Term read by the sender while building the message. -/
  term : Nat := invalidTerm
  /-- Sender of the message. -/
  leaderId : ServerId := {}
  /-- Index of the entry before the first one carried. -/
  prevLogIdx : Nat := 0
  /-- Term of the entry at `prevLogIdx` in the sender's log. -/
  prevLogTerm : Nat := 0
  /-- The entries carried. -/
  logEntries : List LogEntry := []
  /-- The sender's commit index. -/
  commitIdx : Nat := 0
  deriving DecidableEq, Repr

/-- Request for a vote. -/
structure RequestVoteMessage where
  /-- Term of the candidacy. -/
  term : Nat := invalidTerm
  /-- The candidate. -/
  candidateId : ServerId := {}
  /-- Index of the candidate's last entry. -/
  lastLogIdx : Nat := 0
  /-- Term of the candidate's last entry. -/
  lastLogTerm : Nat := invalidTerm
  deriving DecidableEq, Repr

/-- A client's request to append one operation. -/
structure AddLogMessage where
  /-- Name of the bound operation. -/
  opName : ByteString := {}
  /-- Serialized arguments. -/
  args : ByteString := {}
  /-- Index of the promise waiting for the result. -/
  prmIdx : PrmIdx := 0
  /-- Server whose client issued the operation. -/
  srvId : ServerId := {}
  deriving DecidableEq, Repr

/-- Answer to an `AddLogMessage`. -/
structure AddLogReply where
  /-- Whether the operation is in the replying leader's log. -/
  success : Bool := false
  /-- The replying leader, or the null identifier. -/
  leaderId : ServerId := {}
  deriving DecidableEq, Repr

/-- Term of the replying server and its verdict. -/
abbrev Reply := Nat × Bool

/-- Static knowledge of one server. -/
structure ServerInfo where
  /-- The server itself. -/
  localId : ServerId
  /-- All servers of the cluster, the local one included. -/
  srvList : List ServerId
  deriving DecidableEq, Repr

theorem sentinel_ne : [({} : LogEntry)] ≠ [] := List.cons_ne_nil _ _

/-- The state shared by the identities of one server. -/
structure ServerState where
  /-- Latest term the server has adopted. -/
  currentTerm : Nat := invalidTerm
  /-- Candidate that received the last vote. -/
  votedFor : ServerId := nullServerId
  /-- The log, whose first entry is the sentinel. -/
  entries : List LogEntry := [{}]
  /-- Index of the last entry known to be committed. -/
  commitIdx : Nat := 0
  /-- Index of the last entry handed to the application. -/
  lastApplied : Nat := 0
  /-- `entries.back()` is always defined. -/
  entries_ne : entries ≠ [] := by first | exact sentinel_ne | exact List.cons_ne_nil _ _
  deriving DecidableEq, Repr

namespace ServerState

/-- Term of `entries.back()`. -/
def lastTerm (state : ServerState) : Nat := (state.entries.getLast state.entries_ne).term

theorem entries_length_pos (state : ServerState) : 0 < state.entries.length :=
  List.length_pos_of_ne_nil state.entries_ne

end ServerState

/-- Term of the entry at an index, when there is one. -/
def termAt (entries : List LogEntry) (idx : Nat) : Option Nat :=
  entries[idx]?.map LogEntry.term

end Quintet
