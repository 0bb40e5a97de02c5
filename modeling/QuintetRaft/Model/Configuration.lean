import QuintetRaft.Library.PropertyTree
import QuintetRaft.Model.Defs

/-!
# The configuration file

`ServerInfo.cpp`: how a `ServerInfo` is saved to a property tree and loaded from one.  A file holds
the tree that has been written to it; each byte of its strings is a character here.
-/

namespace Quintet

open TextStream PropertyTree

/-- `ServerInfo` with the field that only the timers read. -/
structure FullServerInfo extends ServerInfo where
  /-- The election timeout. -/
  electionTimeout : UInt64
  deriving DecidableEq, Repr

/-- `operator>>` of `ServerId`. -/
def readServerId (text : List Char) : Option (ServerId × List Char) := do
  let (addr, rest) ← readWord text
  let (port, rest) ← readUnsigned UInt16.size rest
  return ({ addr := .ofChars addr, port := UInt16.ofNat port }, rest)

/-- `operator<<` of `ServerId`. -/
def writeServerId (id : ServerId) : String :=
  String.ofList id.addr.chars ++ " " ++ id.port.toNat.repr

/-- `operator>>` of a 64-bit number. -/
def readUInt64 (text : List Char) : Option (UInt64 × List Char) := do
  let (value, rest) ← readUnsigned UInt64.size text
  return (UInt64.ofNat value, rest)

/-- `operator<<` of a 64-bit number. -/
def writeUInt64 (value : UInt64) : String := value.toNat.repr

namespace FullServerInfo

/-- `ServerInfo::load`, which adds the ids it finds to the list there is. -/
def load (tree : PropertyTree) (info : FullServerInfo) : Except Error FullServerInfo := do
  let localId ← getAt (readAll readServerId) ["local", "address"] tree
  let electionTimeout ← getAt (readAll readUInt64) ["electionTimeout"] tree
  let serverList ← getChild ["serverList"] tree
  let ids ← serverList.children.mapM fun srv => getValue (readAll readServerId) srv.2
  return { localId, electionTimeout, srvList := info.srvList ++ ids }

/-- `ServerInfo::save`. -/
def save (info : FullServerInfo) : PropertyTree :=
  let tree := put (writeServerId info.localId) ["local", "address"] empty
  let tree := put (writeUInt64 info.electionTimeout) ["electionTimeout"] tree
  info.srvList.foldl (fun tree id => put (writeServerId id) ["serverList", "serverId"] tree) tree

end FullServerInfo

end Quintet
