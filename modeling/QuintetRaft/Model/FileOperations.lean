import QuintetRaft.Model.FileIO

/-!
# The file operations of a call

The operations by which `append` and `pop` change a file, in program order.  A call that is cut
off has made the first ones of them.  The four bytes of a length are written at once, those of an
element one after the other.
-/

namespace Quintet

open FourBytes

namespace File

/-- An operation of a `std::fstream`. -/
inductive Operation
  /-- `open` with `in | out`, which fails when there is no file. -/
  | openInOut
  /-- `open` with `out`, which leaves an empty file. -/
  | openOut
  /-- `read` of four bytes. -/
  | readInt
  /-- `seekg` or `seekp` from the beginning. -/
  | seek (target : Int)
  /-- `seekg` from the position. -/
  | seekBy (offset : Int)
  | write (bytes : List UInt8)
  deriving DecidableEq, Repr

/-- A stream that is not open. -/
def closed : FileStream := { content := [], failed := true }

/-- What an operation does to the disk and the stream. -/
def Operation.run (name : String) (state : Disk × FileStream) : Operation → Disk × FileStream
  | .openInOut =>
      match state.1 (fileName name) with
      | none => (state.1, closed)
      | some content => (state.1, { content })
  | .openOut => (store state.1 name { content := [] }, { content := [] })
  | .readInt => (state.1, (state.2.read 4).2)
  | .seek target => (state.1, state.2.seek target)
  | .seekBy offset => (state.1, state.2.seekBy offset)
  | .write bytes =>
      if state.2.failed then state
      else (store state.1 name (state.2.write bytes), state.2.write bytes)

/-- Make operations one after the other. -/
def runOperations (name : String) : List Operation → Disk × FileStream → Disk × FileStream
  | [], state => state
  | operation :: operations, state => runOperations name operations (operation.run name state)

/-- The disk after operations that begin without a file open. -/
def diskAfter (name : String) (operations : List Operation) (disk : Disk) : Disk :=
  (runOperations name operations (disk, closed)).1

section Calls

variable {T : Type} (codec : Codec T) (name : String)

/-- The operations of `append` behind those that open the file. -/
def writeOperations (length : Int) (val : T) : List Operation :=
  let valData := codec.serialize val
  let dataSize := int2String (wrap valData.length)
  let valData := dataSize ++ valData ++ dataSize
  .seek length :: (valData.map fun byte => .write [byte]) ++
    [.seek 0, .write (encode (wrap (length + valData.length)))]

def appendOperations (val : T) (disk : Disk) : List Operation :=
  let length := (openAppend name disk).1
  match disk (fileName name) with
  | none => .openInOut :: .openOut :: .write (encode 4) :: writeOperations codec length val
  | some _ => .openInOut :: .readInt :: writeOperations codec length val

def popOperations (memory : Memory) (disk : Disk) : List Operation :=
  match disk (fileName name) with
  | none => [.openInOut]
  | some content =>
      let (length, stream) := readInt { content } (memory.bytes .length 4)
      let (size, _) := readInt (stream.seek (wrap (length - 4))) (memory.bytes .size 4)
      [.openInOut, .readInt, .seek (wrap (length - 4)), .readInt,
        .seekBy (wrap (wrap (-size) - 8)), .readInt, .seek 0,
        .write (encode (wrap (length - wrap (size + 8))))]

/-- The operations of a call. -/
def Call.operations (disk : Disk) : Call T → List Operation
  | .append val => appendOperations codec name val disk
  | .pop memory => popOperations name memory disk

end Calls

end File

end Quintet
