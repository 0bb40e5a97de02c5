import QuintetRaft.Library.Varint
import QuintetRaft.Model.RpcClients

/-!
# The messages of the remote procedure calls

The classes that `protoc` has generated into `RaftRpc.pb.cc`.  All of them are one construction on
a list of fields; each class lists its fields, with their numbers and the tags that its parser
expects, in the order in which it writes them, and again in the orders in which it counts their
bytes and merges them.  Strings are bytes; the parser refuses those that are not UTF-8, while the
serialiser only logs an error.  Unknown fields are kept, merged, and written and counted where
`GetProto3PreserveUnknownsDefault` says so.
-/

namespace Quintet

namespace Rpc

open WireFormat

@[ext] structure PbReply where
  term : UInt64 := 0
  ans : Bool := false
  unknownFields : UnknownFieldSet := []
  deriving DecidableEq, Repr

@[ext] structure PbServerId where
  addr : ByteString := {}
  port : UInt32 := 0
  unknownFields : UnknownFieldSet := []
  deriving DecidableEq, Repr

@[ext] structure PbLogEntry where
  term : UInt64 := 0
  opName : ByteString := {}
  args : ByteString := {}
  prmIdx : UInt64 := 0
  srvId : Option PbServerId := none
  unknownFields : UnknownFieldSet := []
  deriving DecidableEq, Repr

@[ext] structure PbAppendEntriesMessage where
  term : UInt64 := 0
  leaderId : Option PbServerId := none
  prevLogIdx : UInt64 := 0
  prevLogTerm : UInt64 := 0
  logEntries : List PbLogEntry := []
  commitIdx : UInt64 := 0
  unknownFields : UnknownFieldSet := []
  deriving DecidableEq, Repr

@[ext] structure PbRequestVoteMessage where
  term : UInt64 := 0
  candidateId : Option PbServerId := none
  lastLogIdx : UInt64 := 0
  lastLogTerm : UInt64 := 0
  unknownFields : UnknownFieldSet := []
  deriving DecidableEq, Repr

@[ext] structure PbAddLogMessage where
  opName : ByteString := {}
  args : ByteString := {}
  prmIdx : UInt64 := 0
  srvId : Option PbServerId := none
  unknownFields : UnknownFieldSet := []
  deriving DecidableEq, Repr

@[ext] structure PbAddLogReply where
  success : Bool := false
  leaderId : Option PbServerId := none
  unknownFields : UnknownFieldSet := []
  deriving DecidableEq, Repr

variable (runtime : Runtime)

section Fields

variable {M : Type} (number tag : ℕ)

/-- A field of type `uint64`. -/
def uint64Field (get : M → UInt64) (set : UInt64 → M → M) : MessageField M :=
  ⟨number, tag, _, singular runtime.uint64 0 0, ⟨get, set⟩⟩

/-- A field of type `uint32`. -/
def uint32Field (get : M → UInt32) (set : UInt32 → M → M) : MessageField M :=
  ⟨number, tag, _, singular runtime.uint32 0 0, ⟨get, set⟩⟩

/-- A field of type `bool`, whose payload is taken to have one byte. -/
def boolField (get : M → Bool) (set : Bool → M → M) : MessageField M :=
  ⟨number, tag, _, singular { runtime.bool with size := fun _ => 1 } 0 false, ⟨get, set⟩⟩

/-- A field of type `string`. -/
def stringField (get : M → ByteString) (set : ByteString → M → M) : MessageField M :=
  ⟨number, tag, _, singular runtime.string 2 {}, ⟨get, set⟩⟩

/-- A field whose type is a class. -/
def nestedField {N : Type} (messages : MessageClass N) (get : M → Option N)
    (set : Option N → M → M) : MessageField M :=
  ⟨number, tag, _, nested runtime.coding messages, ⟨get, set⟩⟩

/-- A repeated field whose type is a class. -/
def repeatedField {N : Type} (messages : MessageClass N) (get : M → List N)
    (set : List N → M → M) : MessageField M :=
  ⟨number, tag, _, repeated runtime.coding messages, ⟨get, set⟩⟩

end Fields

/-! ## `PbReply` -/

namespace PbReply

def termField : MessageField PbReply :=
  uint64Field runtime 1 8 term fun term msg => { msg with term }

def ansField : MessageField PbReply :=
  boolField runtime 2 16 ans fun ans msg => { msg with ans }

def fields : List (MessageField PbReply) := [termField runtime, ansField runtime]

def layout : Layout PbReply :=
  { fields := fields runtime
    unknown := ⟨unknownFields, fun unknownFields msg => { msg with unknownFields }⟩ }

def mergePartialFromCodedStream : PbReply → Bytes → Option (PbReply × Bytes) :=
  mergePartialFields runtime.coding (layout runtime)

def serializeWithCachedSizes : PbReply → Bytes := (layout runtime).write runtime.coding

def byteSizeLong : PbReply → ℕ :=
  (layout runtime).size runtime.coding [termField runtime, ansField runtime]

def mergeFrom : PbReply → PbReply → PbReply :=
  (layout runtime).assign [termField runtime, ansField runtime]

/-- The functions of the class. -/
def messages : MessageClass PbReply where
  empty := {}
  mergePartial := mergePartialFromCodedStream runtime
  serialize := serializeWithCachedSizes runtime
  byteSize := byteSizeLong runtime
  mergeFrom := mergeFrom runtime
  Valid := (layout runtime).Valid
  Whole := (layout runtime).Whole runtime.coding

end PbReply

/-! ## `PbServerId` -/

namespace PbServerId

def addrField : MessageField PbServerId :=
  stringField runtime 1 10 addr fun addr msg => { msg with addr }

def portField : MessageField PbServerId :=
  uint32Field runtime 2 16 port fun port msg => { msg with port }

def fields : List (MessageField PbServerId) := [addrField runtime, portField runtime]

def layout : Layout PbServerId :=
  { fields := fields runtime
    unknown := ⟨unknownFields, fun unknownFields msg => { msg with unknownFields }⟩ }

def mergePartialFromCodedStream : PbServerId → Bytes → Option (PbServerId × Bytes) :=
  mergePartialFields runtime.coding (layout runtime)

def serializeWithCachedSizes : PbServerId → Bytes := (layout runtime).write runtime.coding

def byteSizeLong : PbServerId → ℕ :=
  (layout runtime).size runtime.coding [addrField runtime, portField runtime]

def mergeFrom : PbServerId → PbServerId → PbServerId :=
  (layout runtime).assign [addrField runtime, portField runtime]

/-- The functions of the class. -/
def messages : MessageClass PbServerId where
  empty := {}
  mergePartial := mergePartialFromCodedStream runtime
  serialize := serializeWithCachedSizes runtime
  byteSize := byteSizeLong runtime
  mergeFrom := mergeFrom runtime
  Valid := (layout runtime).Valid
  Whole := (layout runtime).Whole runtime.coding

end PbServerId

/-! ## `PbLogEntry` -/

namespace PbLogEntry

def termField : MessageField PbLogEntry :=
  uint64Field runtime 1 8 term fun term msg => { msg with term }

def opNameField : MessageField PbLogEntry :=
  stringField runtime 2 18 opName fun opName msg => { msg with opName }

def argsField : MessageField PbLogEntry :=
  stringField runtime 3 26 args fun args msg => { msg with args }

def prmIdxField : MessageField PbLogEntry :=
  uint64Field runtime 4 32 prmIdx fun prmIdx msg => { msg with prmIdx }

def srvIdField : MessageField PbLogEntry :=
  nestedField runtime 5 42 (PbServerId.messages runtime) srvId fun srvId msg => { msg with srvId }

def fields : List (MessageField PbLogEntry) :=
  [termField runtime, opNameField runtime, argsField runtime, prmIdxField runtime,
    srvIdField runtime]

def layout : Layout PbLogEntry :=
  { fields := fields runtime
    unknown := ⟨unknownFields, fun unknownFields msg => { msg with unknownFields }⟩ }

def mergePartialFromCodedStream : PbLogEntry → Bytes → Option (PbLogEntry × Bytes) :=
  mergePartialFields runtime.coding (layout runtime)

def serializeWithCachedSizes : PbLogEntry → Bytes := (layout runtime).write runtime.coding

def byteSizeLong : PbLogEntry → ℕ :=
  (layout runtime).size runtime.coding
    [opNameField runtime, argsField runtime, srvIdField runtime, termField runtime,
      prmIdxField runtime]

def mergeFrom : PbLogEntry → PbLogEntry → PbLogEntry :=
  (layout runtime).assign
    [opNameField runtime, argsField runtime, srvIdField runtime, termField runtime,
      prmIdxField runtime]

/-- The functions of the class. -/
def messages : MessageClass PbLogEntry where
  empty := {}
  mergePartial := mergePartialFromCodedStream runtime
  serialize := serializeWithCachedSizes runtime
  byteSize := byteSizeLong runtime
  mergeFrom := mergeFrom runtime
  Valid := (layout runtime).Valid
  Whole := (layout runtime).Whole runtime.coding

end PbLogEntry

/-! ## `PbAppendEntriesMessage` -/

namespace PbAppendEntriesMessage

def termField : MessageField PbAppendEntriesMessage :=
  uint64Field runtime 1 8 term fun term msg => { msg with term }

def leaderIdField : MessageField PbAppendEntriesMessage :=
  nestedField runtime 2 18 (PbServerId.messages runtime) leaderId
    fun leaderId msg => { msg with leaderId }

def prevLogIdxField : MessageField PbAppendEntriesMessage :=
  uint64Field runtime 3 24 prevLogIdx fun prevLogIdx msg => { msg with prevLogIdx }

def prevLogTermField : MessageField PbAppendEntriesMessage :=
  uint64Field runtime 4 32 prevLogTerm fun prevLogTerm msg => { msg with prevLogTerm }

def logEntriesField : MessageField PbAppendEntriesMessage :=
  repeatedField runtime 5 42 (PbLogEntry.messages runtime) logEntries
    fun logEntries msg => { msg with logEntries }

def commitIdxField : MessageField PbAppendEntriesMessage :=
  uint64Field runtime 6 48 commitIdx fun commitIdx msg => { msg with commitIdx }

def fields : List (MessageField PbAppendEntriesMessage) :=
  [termField runtime, leaderIdField runtime, prevLogIdxField runtime, prevLogTermField runtime,
    logEntriesField runtime, commitIdxField runtime]

def layout : Layout PbAppendEntriesMessage :=
  { fields := fields runtime
    unknown := ⟨unknownFields, fun unknownFields msg => { msg with unknownFields }⟩ }

def mergePartialFromCodedStream :
    PbAppendEntriesMessage → Bytes → Option (PbAppendEntriesMessage × Bytes) :=
  mergePartialFields runtime.coding (layout runtime)

def serializeWithCachedSizes : PbAppendEntriesMessage → Bytes :=
  (layout runtime).write runtime.coding

def byteSizeLong : PbAppendEntriesMessage → ℕ :=
  (layout runtime).size runtime.coding
    [logEntriesField runtime, leaderIdField runtime, termField runtime, prevLogIdxField runtime,
      prevLogTermField runtime, commitIdxField runtime]

def mergeFrom : PbAppendEntriesMessage → PbAppendEntriesMessage → PbAppendEntriesMessage :=
  (layout runtime).assign
    [logEntriesField runtime, leaderIdField runtime, termField runtime, prevLogIdxField runtime,
      prevLogTermField runtime, commitIdxField runtime]

/-- The functions of the class. -/
def messages : MessageClass PbAppendEntriesMessage where
  empty := {}
  mergePartial := mergePartialFromCodedStream runtime
  serialize := serializeWithCachedSizes runtime
  byteSize := byteSizeLong runtime
  mergeFrom := mergeFrom runtime
  Valid := (layout runtime).Valid
  Whole := (layout runtime).Whole runtime.coding

end PbAppendEntriesMessage

/-! ## `PbRequestVoteMessage` -/

namespace PbRequestVoteMessage

def termField : MessageField PbRequestVoteMessage :=
  uint64Field runtime 1 8 term fun term msg => { msg with term }

def candidateIdField : MessageField PbRequestVoteMessage :=
  nestedField runtime 2 18 (PbServerId.messages runtime) candidateId
    fun candidateId msg => { msg with candidateId }

def lastLogIdxField : MessageField PbRequestVoteMessage :=
  uint64Field runtime 3 24 lastLogIdx fun lastLogIdx msg => { msg with lastLogIdx }

def lastLogTermField : MessageField PbRequestVoteMessage :=
  uint64Field runtime 4 32 lastLogTerm fun lastLogTerm msg => { msg with lastLogTerm }

def fields : List (MessageField PbRequestVoteMessage) :=
  [termField runtime, candidateIdField runtime, lastLogIdxField runtime, lastLogTermField runtime]

def layout : Layout PbRequestVoteMessage :=
  { fields := fields runtime
    unknown := ⟨unknownFields, fun unknownFields msg => { msg with unknownFields }⟩ }

def mergePartialFromCodedStream :
    PbRequestVoteMessage → Bytes → Option (PbRequestVoteMessage × Bytes) :=
  mergePartialFields runtime.coding (layout runtime)

def serializeWithCachedSizes : PbRequestVoteMessage → Bytes := (layout runtime).write runtime.coding

def byteSizeLong : PbRequestVoteMessage → ℕ :=
  (layout runtime).size runtime.coding
    [candidateIdField runtime, termField runtime, lastLogIdxField runtime, lastLogTermField runtime]

def mergeFrom : PbRequestVoteMessage → PbRequestVoteMessage → PbRequestVoteMessage :=
  (layout runtime).assign
    [candidateIdField runtime, termField runtime, lastLogIdxField runtime, lastLogTermField runtime]

/-- The functions of the class. -/
def messages : MessageClass PbRequestVoteMessage where
  empty := {}
  mergePartial := mergePartialFromCodedStream runtime
  serialize := serializeWithCachedSizes runtime
  byteSize := byteSizeLong runtime
  mergeFrom := mergeFrom runtime
  Valid := (layout runtime).Valid
  Whole := (layout runtime).Whole runtime.coding

end PbRequestVoteMessage

/-! ## `PbAddLogMessage` -/

namespace PbAddLogMessage

def opNameField : MessageField PbAddLogMessage :=
  stringField runtime 1 10 opName fun opName msg => { msg with opName }

def argsField : MessageField PbAddLogMessage :=
  stringField runtime 2 18 args fun args msg => { msg with args }

def prmIdxField : MessageField PbAddLogMessage :=
  uint64Field runtime 3 24 prmIdx fun prmIdx msg => { msg with prmIdx }

def srvIdField : MessageField PbAddLogMessage :=
  nestedField runtime 4 34 (PbServerId.messages runtime) srvId fun srvId msg => { msg with srvId }

def fields : List (MessageField PbAddLogMessage) :=
  [opNameField runtime, argsField runtime, prmIdxField runtime, srvIdField runtime]

def layout : Layout PbAddLogMessage :=
  { fields := fields runtime
    unknown := ⟨unknownFields, fun unknownFields msg => { msg with unknownFields }⟩ }

def mergePartialFromCodedStream : PbAddLogMessage → Bytes → Option (PbAddLogMessage × Bytes) :=
  mergePartialFields runtime.coding (layout runtime)

def serializeWithCachedSizes : PbAddLogMessage → Bytes := (layout runtime).write runtime.coding

def byteSizeLong : PbAddLogMessage → ℕ :=
  (layout runtime).size runtime.coding
    [opNameField runtime, argsField runtime, srvIdField runtime, prmIdxField runtime]

def mergeFrom : PbAddLogMessage → PbAddLogMessage → PbAddLogMessage :=
  (layout runtime).assign
    [opNameField runtime, argsField runtime, srvIdField runtime, prmIdxField runtime]

/-- The functions of the class. -/
def messages : MessageClass PbAddLogMessage where
  empty := {}
  mergePartial := mergePartialFromCodedStream runtime
  serialize := serializeWithCachedSizes runtime
  byteSize := byteSizeLong runtime
  mergeFrom := mergeFrom runtime
  Valid := (layout runtime).Valid
  Whole := (layout runtime).Whole runtime.coding

end PbAddLogMessage

/-! ## `PbAddLogReply` -/

namespace PbAddLogReply

def successField : MessageField PbAddLogReply :=
  boolField runtime 1 8 success fun success msg => { msg with success }

def leaderIdField : MessageField PbAddLogReply :=
  nestedField runtime 2 18 (PbServerId.messages runtime) leaderId
    fun leaderId msg => { msg with leaderId }

def fields : List (MessageField PbAddLogReply) := [successField runtime, leaderIdField runtime]

def layout : Layout PbAddLogReply :=
  { fields := fields runtime
    unknown := ⟨unknownFields, fun unknownFields msg => { msg with unknownFields }⟩ }

def mergePartialFromCodedStream : PbAddLogReply → Bytes → Option (PbAddLogReply × Bytes) :=
  mergePartialFields runtime.coding (layout runtime)

def serializeWithCachedSizes : PbAddLogReply → Bytes := (layout runtime).write runtime.coding

def byteSizeLong : PbAddLogReply → ℕ :=
  (layout runtime).size runtime.coding [leaderIdField runtime, successField runtime]

def mergeFrom : PbAddLogReply → PbAddLogReply → PbAddLogReply :=
  (layout runtime).assign [leaderIdField runtime, successField runtime]

/-- The functions of the class. -/
def messages : MessageClass PbAddLogReply where
  empty := {}
  mergePartial := mergePartialFromCodedStream runtime
  serialize := serializeWithCachedSizes runtime
  byteSize := byteSizeLong runtime
  mergeFrom := mergeFrom runtime
  Valid := (layout runtime).Valid
  Whole := (layout runtime).Whole runtime.coding

end PbAddLogReply

end Rpc

end Quintet
