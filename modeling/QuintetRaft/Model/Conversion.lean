import QuintetRaft.Model.RaftRpc

/-!
# Conversion between the messages of the servers and of the network

`Conversion.cpp`.  Its functions are overloaded: those towards the network are named as in the
source, those back are named after the class they start from.
-/

namespace Quintet

namespace Rpc

/-! ## To the network -/

def convertReply (reply : Reply) : PbReply :=
  { term := UInt64.ofNat reply.1, ans := reply.2 }

def convertServerId (serverId : ServerId) : PbServerId :=
  { addr := serverId.addr, port := serverId.port.toUInt32 }

def convertLogEntry (entry : LogEntry) : PbLogEntry :=
  { term := UInt64.ofNat entry.term
    opName := entry.opName
    args := entry.args
    prmIdx := entry.prmIdx
    srvId := some (convertServerId entry.srvId) }

def convertAppendEntriesMessage (msg : AppendEntriesMessage) : PbAppendEntriesMessage :=
  { term := UInt64.ofNat msg.term
    leaderId := some (convertServerId msg.leaderId)
    prevLogIdx := UInt64.ofNat msg.prevLogIdx
    prevLogTerm := UInt64.ofNat msg.prevLogTerm
    logEntries := msg.logEntries.map convertLogEntry
    commitIdx := UInt64.ofNat msg.commitIdx }

def convertRequestVoteMessage (msg : RequestVoteMessage) : PbRequestVoteMessage :=
  { term := UInt64.ofNat msg.term
    candidateId := some (convertServerId msg.candidateId)
    lastLogIdx := UInt64.ofNat msg.lastLogIdx
    lastLogTerm := UInt64.ofNat msg.lastLogTerm }

def convertAddLogMessage (msg : AddLogMessage) : PbAddLogMessage :=
  { opName := msg.opName
    args := msg.args
    prmIdx := msg.prmIdx
    srvId := some (convertServerId msg.srvId) }

def convertAddLogReply (reply : AddLogReply) : PbAddLogReply :=
  { success := reply.success, leaderId := some (convertServerId reply.leaderId) }

/-! ## From the network

A nested message that is missing reads as an empty one; unknown fields are not looked at. -/

/-- What the accessors of an identifier show. -/
def PbServerId.accessors (serverId : PbServerId) : Quintet.PbServerId :=
  { addr := serverId.addr, port := serverId.port }

def PbServerId.convertServerId (serverId : PbServerId) : ServerId :=
  Quintet.convertServerId serverId.accessors

/-- What the accessors of a reply show. -/
def PbReply.accessors (reply : PbReply) : Quintet.PbReply :=
  { term := reply.term.toNat, ans := reply.ans }

/-- What the accessors of a reply show. -/
def PbAddLogReply.accessors (reply : PbAddLogReply) : Quintet.PbAddLogReply :=
  { success := reply.success, leaderId := (reply.leaderId.getD {}).accessors }

def PbReply.convertReply (reply : PbReply) : Reply := Quintet.convertReply reply.accessors

def PbLogEntry.convertLogEntry (entry : PbLogEntry) : LogEntry :=
  { term := entry.term.toNat
    opName := entry.opName
    args := entry.args
    prmIdx := entry.prmIdx
    srvId := (entry.srvId.getD {}).convertServerId }

def PbAppendEntriesMessage.convertAppendEntriesMessage (msg : PbAppendEntriesMessage) :
    AppendEntriesMessage :=
  { term := msg.term.toNat
    leaderId := (msg.leaderId.getD {}).convertServerId
    prevLogIdx := msg.prevLogIdx.toNat
    prevLogTerm := msg.prevLogTerm.toNat
    logEntries := msg.logEntries.map PbLogEntry.convertLogEntry
    commitIdx := msg.commitIdx.toNat }

def PbRequestVoteMessage.convertRequestVoteMessage (msg : PbRequestVoteMessage) :
    RequestVoteMessage :=
  { term := msg.term.toNat
    candidateId := (msg.candidateId.getD {}).convertServerId
    lastLogIdx := msg.lastLogIdx.toNat
    lastLogTerm := msg.lastLogTerm.toNat }

def PbAddLogMessage.convertAddLogMessage (msg : PbAddLogMessage) : AddLogMessage :=
  { opName := msg.opName
    args := msg.args
    prmIdx := msg.prmIdx
    srvId := (msg.srvId.getD {}).convertServerId }

def PbAddLogReply.convertAddLogReply (reply : PbAddLogReply) : AddLogReply :=
  Quintet.convertAddLogReply reply.accessors

end Rpc

/-! ## What survives -/

/-- The numbers of an entry have 64 bits. -/
def LogEntry.Fits (entry : LogEntry) : Prop := entry.term < termModulus

/-- The numbers of a reply have 64 bits. -/
def Reply.Fits (reply : Reply) : Prop := reply.1 < termModulus

/-- The numbers of a message have 64 bits. -/
structure AppendEntriesMessage.Fits (msg : AppendEntriesMessage) : Prop where
  term : msg.term < termModulus
  prevLogIdx : msg.prevLogIdx < termModulus
  prevLogTerm : msg.prevLogTerm < termModulus
  logEntries : ∀ entry ∈ msg.logEntries, entry.Fits
  commitIdx : msg.commitIdx < termModulus

/-- The numbers of a message have 64 bits. -/
structure RequestVoteMessage.Fits (msg : RequestVoteMessage) : Prop where
  term : msg.term < termModulus
  lastLogIdx : msg.lastLogIdx < termModulus
  lastLogTerm : msg.lastLogTerm < termModulus

/-- The address is in UTF-8. -/
def ServerId.IsText (serverId : ServerId) : Prop := serverId.addr.IsUtf8

/-- All strings of an entry are in UTF-8. -/
def LogEntry.IsText (entry : LogEntry) : Prop :=
  entry.opName.IsUtf8 ∧ entry.args.IsUtf8 ∧ entry.srvId.IsText

/-- All strings of a message are in UTF-8. -/
def AppendEntriesMessage.IsText (msg : AppendEntriesMessage) : Prop :=
  msg.leaderId.IsText ∧ ∀ entry ∈ msg.logEntries, entry.IsText

/-- All strings of a message are in UTF-8. -/
def RequestVoteMessage.IsText (msg : RequestVoteMessage) : Prop := msg.candidateId.IsText

/-- All strings of a message are in UTF-8. -/
def AddLogMessage.IsText (msg : AddLogMessage) : Prop :=
  msg.opName.IsUtf8 ∧ msg.args.IsUtf8 ∧ msg.srvId.IsText

/-- All strings of a reply are in UTF-8. -/
def AddLogReply.IsText (reply : AddLogReply) : Prop := reply.leaderId.IsText

instance (serverId : ServerId) : Decidable serverId.IsText :=
  inferInstanceAs (Decidable serverId.addr.IsUtf8)

instance (entry : LogEntry) : Decidable entry.IsText := inferInstanceAs (Decidable (_ ∧ _))

instance (msg : AppendEntriesMessage) : Decidable msg.IsText :=
  inferInstanceAs (Decidable (_ ∧ _))

instance (msg : RequestVoteMessage) : Decidable msg.IsText :=
  inferInstanceAs (Decidable msg.candidateId.IsText)

instance (msg : AddLogMessage) : Decidable msg.IsText := inferInstanceAs (Decidable (_ ∧ _))

instance (reply : AddLogReply) : Decidable reply.IsText :=
  inferInstanceAs (Decidable reply.leaderId.IsText)

namespace Rpc

theorem toNat_ofNat_iff {number : ℕ} :
    (UInt64.ofNat number).toNat = number ↔ number < termModulus := by
  rw [UInt64.toNat_ofNat']
  exact ⟨fun same => same ▸ Nat.mod_lt _ (by decide), Nat.mod_eq_of_lt⟩

/-- Identifiers come back as they are. -/
@[simp] theorem convertServerId_back (serverId : ServerId) :
    (convertServerId serverId).convertServerId = serverId := by
  simp [PbServerId.convertServerId, PbServerId.accessors, Quintet.convertServerId, convertServerId]

theorem convertReply_back {reply : Reply} :
    (convertReply reply).convertReply = reply ↔ reply.Fits := by
  simp [convertReply, PbReply.convertReply, PbReply.accessors, Quintet.convertReply, Reply.Fits,
    Prod.ext_iff, toNat_ofNat_iff, -UInt64.toNat_ofNat']

theorem convertLogEntry_back {entry : LogEntry} :
    (convertLogEntry entry).convertLogEntry = entry ↔ entry.Fits := by
  cases entry
  simp [convertLogEntry, PbLogEntry.convertLogEntry, LogEntry.Fits, toNat_ofNat_iff,
    -UInt64.toNat_ofNat']

theorem convertLogEntries_back {entries : List LogEntry} :
    (entries.map convertLogEntry).map PbLogEntry.convertLogEntry = entries ↔
      ∀ entry ∈ entries, entry.Fits := by
  induction entries with
  | nil => simp
  | cons entry entries ih =>
      simp only [List.map_cons, List.cons.injEq, convertLogEntry_back, ih, List.forall_mem_cons]

theorem convertAppendEntriesMessage_back {msg : AppendEntriesMessage} :
    (convertAppendEntriesMessage msg).convertAppendEntriesMessage = msg ↔ msg.Fits := by
  cases msg
  simp only [convertAppendEntriesMessage, PbAppendEntriesMessage.convertAppendEntriesMessage,
    Option.getD_some, convertServerId_back, AppendEntriesMessage.mk.injEq, true_and,
    toNat_ofNat_iff, convertLogEntries_back]
  exact ⟨fun ⟨term, idx, term', entries, commit⟩ => ⟨term, idx, term', entries, commit⟩,
    fun fits => ⟨fits.term, fits.prevLogIdx, fits.prevLogTerm, fits.logEntries, fits.commitIdx⟩⟩

theorem convertRequestVoteMessage_back {msg : RequestVoteMessage} :
    (convertRequestVoteMessage msg).convertRequestVoteMessage = msg ↔ msg.Fits := by
  cases msg
  simp only [convertRequestVoteMessage, PbRequestVoteMessage.convertRequestVoteMessage,
    Option.getD_some, convertServerId_back, RequestVoteMessage.mk.injEq, true_and,
    toNat_ofNat_iff]
  exact ⟨fun ⟨term, idx, term'⟩ => ⟨term, idx, term'⟩,
    fun fits => ⟨fits.term, fits.lastLogIdx, fits.lastLogTerm⟩⟩

theorem convertAddLogMessage_back (msg : AddLogMessage) :
    (convertAddLogMessage msg).convertAddLogMessage = msg := by
  cases msg
  simp [convertAddLogMessage, PbAddLogMessage.convertAddLogMessage]

theorem convertAddLogReply_back (reply : AddLogReply) :
    (convertAddLogReply reply).convertAddLogReply = reply := by
  cases reply
  exact congrArg (AddLogReply.mk _) (convertServerId_back _)

/-! ## What can be told apart -/

/-- An identifier that a `ServerId` can hold is there. -/
def HasServerId (serverId : Option PbServerId) : Prop :=
  ∃ id, serverId = some id ∧ id.port.toNat < 65536 ∧ id.unknownFields = []

theorem toUInt32_toUInt16_iff {port : UInt32} :
    port.toUInt16.toUInt32 = port ↔ port.toNat < 65536 := by
  rw [← UInt32.toNat_inj, UInt16.toNat_toUInt32, UInt32.toNat_toUInt16]
  exact ⟨fun same => same ▸ Nat.mod_lt _ (by decide), Nat.mod_eq_of_lt⟩

theorem convertServerId_forth {serverId : Option PbServerId} :
    some (convertServerId (serverId.getD {}).convertServerId) = serverId ↔
      HasServerId serverId := by
  cases serverId with
  | none => simp [HasServerId]
  | some id =>
      cases id
      simp only [Option.getD_some, HasServerId, convertServerId, PbServerId.convertServerId,
        PbServerId.accessors, Quintet.convertServerId, Option.some.injEq, PbServerId.mk.injEq,
        toUInt32_toUInt16_iff, true_and, exists_eq_left', @eq_comm _ []]

/-- An entry that a `LogEntry` can hold. -/
def PbLogEntry.Plain (entry : PbLogEntry) : Prop :=
  HasServerId entry.srvId ∧ entry.unknownFields = []

theorem convertLogEntry_forth {entry : PbLogEntry} :
    convertLogEntry entry.convertLogEntry = entry ↔ entry.Plain := by
  cases entry
  simp [convertLogEntry, PbLogEntry.convertLogEntry, convertServerId_forth, PbLogEntry.Plain,
    @eq_comm _ []]

theorem convertLogEntries_forth {entries : List PbLogEntry} :
    (entries.map PbLogEntry.convertLogEntry).map convertLogEntry = entries ↔
      ∀ entry ∈ entries, entry.Plain := by
  induction entries with
  | nil => simp
  | cons entry entries ih =>
      simp only [List.map_cons, List.cons.injEq, convertLogEntry_forth, ih, List.forall_mem_cons]

theorem convertAppendEntriesMessage_forth {msg : PbAppendEntriesMessage} :
    convertAppendEntriesMessage msg.convertAppendEntriesMessage = msg ↔
      HasServerId msg.leaderId ∧ (∀ entry ∈ msg.logEntries, entry.Plain) ∧
        msg.unknownFields = [] := by
  cases msg
  simp only [convertAppendEntriesMessage, PbAppendEntriesMessage.convertAppendEntriesMessage,
    UInt64.ofNat_toNat, PbAppendEntriesMessage.mk.injEq, convertServerId_forth,
    convertLogEntries_forth, true_and, @eq_comm _ []]

theorem convertRequestVoteMessage_forth {msg : PbRequestVoteMessage} :
    convertRequestVoteMessage msg.convertRequestVoteMessage = msg ↔
      HasServerId msg.candidateId ∧ msg.unknownFields = [] := by
  cases msg
  simp [convertRequestVoteMessage, PbRequestVoteMessage.convertRequestVoteMessage,
    convertServerId_forth, @eq_comm _ []]

theorem convertAddLogMessage_forth {msg : PbAddLogMessage} :
    convertAddLogMessage msg.convertAddLogMessage = msg ↔
      HasServerId msg.srvId ∧ msg.unknownFields = [] := by
  cases msg
  simp [convertAddLogMessage, PbAddLogMessage.convertAddLogMessage, convertServerId_forth,
    @eq_comm _ []]

theorem convertReply_forth {reply : PbReply} :
    convertReply reply.convertReply = reply ↔ reply.unknownFields = [] := by
  cases reply
  simp [convertReply, PbReply.convertReply, PbReply.accessors, Quintet.convertReply, @eq_comm _ []]

theorem convertAddLogReply_forth {reply : PbAddLogReply} :
    convertAddLogReply reply.convertAddLogReply = reply ↔
      HasServerId reply.leaderId ∧ reply.unknownFields = [] := by
  obtain ⟨success, leaderId, unknownFields⟩ := reply
  have forth : some (convertServerId (leaderId.getD {}).convertServerId) = leaderId ↔ _ :=
    convertServerId_forth
  simp only [convertAddLogReply, PbAddLogReply.convertAddLogReply, PbAddLogReply.accessors,
    Quintet.convertAddLogReply, PbAddLogReply.mk.injEq, true_and, @eq_comm _ []]
  exact and_congr_left fun _ => forth

end Rpc

end Quintet
