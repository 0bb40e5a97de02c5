import QuintetRaft.Library.ByteFile

/-!
# Files of values and of vectors

`FileIO.h` and `FileIO.cpp`: the class `File`, which keeps a value or a vector of values in a file
`name + ".bin"`.  A vector starts with four bytes for its length in bytes, these four included, and
every element stands between two copies of its size.  Bytes behind the recorded length are left
over from elements that have been popped.

A file that exists can be opened, and a new one can always be created.  Integers are those of 32
bits, with the wrap-around that the compilers give to a sum that does not fit.

`deserialize<T>` takes a `std::string`, and `getValue` and `getVector` hand it a `char *`: the
string is made of the bytes up to the first zero, wherever that stands.  Nobody puts a zero behind
a buffer, so the string may end before the buffer does, or take in what happens to stand behind
it.
-/

namespace Quintet

open FourBytes

/-- What a call on a `File` can throw. -/
inductive FileError
  /-- A `std::runtime_error`. -/
  | runtimeError (what : String)
  /-- `new char[size]` with a negative size. -/
  | badArrayNewLength
  /-- The archive does not hold a value of the type. -/
  | archiveException
  deriving DecidableEq, Repr

/-- The files of the working directory. -/
abbrev Disk := String → Option (List UInt8)

/-- There are no files. -/
def noFiles : Disk := fun _ => none

/-- Serialization of the values of one type. -/
structure Codec (T : Type) where
  /-- `serialize<T>`. -/
  serialize : T → List UInt8
  /-- `deserialize<T>` of a string, and nothing when the archive is refused. -/
  deserialize : List UInt8 → Option T

/-- The local variables that are not initialised. -/
inductive Uninitialised
  | length | size | size1 | buffer
  deriving DecidableEq, Repr

/-- What memory that nobody has written happens to hold. -/
structure Memory where
  /-- The uninitialised variables, byte by byte. -/
  unset : Uninitialised → Nat → UInt8
  /-- What stands behind a buffer, up to a zero. -/
  behind : List UInt8 := []

/-- The bytes of a variable of the given size. -/
def Memory.bytes (memory : Memory) (name : Uninitialised) (size : Nat) : List UInt8 :=
  (List.range size).map (memory.unset name)

@[simp] theorem Memory.bytes_length (memory : Memory) (name : Uninitialised) (size : Nat) :
    (memory.bytes name size).length = size := by
  simp [Memory.bytes]

/-- Memory that holds the same byte wherever it has not been written. -/
def Memory.filled (byte : UInt8) : Memory := { unset := fun _ _ => byte }

/-- The string that a `char *` is taken for: the bytes up to the first zero. -/
def cString (bytes : List UInt8) : List UInt8 := bytes.takeWhile (· != 0)

/-- `deserialize<T>(buffer)[0_c]` for a buffer with the given bytes. -/
def Codec.fromBuffer {T : Type} (codec : Codec T) (memory : Memory) (buffer : List UInt8) :
    Option T :=
  codec.deserialize (cString (buffer ++ memory.behind))

/-- A buffer is read as a value, whatever stands behind it. -/
def Codec.Reads {T : Type} (codec : Codec T) (buffer : List UInt8) (val : T) : Prop :=
  ∀ memory, codec.fromBuffer memory buffer = some val

/-- A buffer is refused, whatever stands behind it. -/
def Codec.Refuses {T : Type} (codec : Codec T) (buffer : List UInt8) : Prop :=
  ∀ memory, codec.fromBuffer memory buffer = none

/-- The variables and vectors that a program has registered. -/
structure File where
  /-- The types of the names. -/
  vars : String → Option Int := fun _ => none

namespace File

def FILE_VALUE : Int := 0
def FILE_VECTOR : Int := 1

/-- The file of a name. -/
def fileName (name : String) : String := name ++ ".bin"

def registerVar (file : File) (name : String) (type : Int) : Except FileError File :=
  if (file.vars name).isSome then
    .error (.runtimeError ("\"" ++ name ++ "\" has already registered"))
  else .ok { vars := fun other => if other = name then some type else file.vars other }

def checkVar (file : File) (name : String) (type : Int) : Except FileError Unit :=
  match file.vars name with
  | none => .error (.runtimeError ("\"" ++ name ++ "\" has not registered"))
  | some found =>
      if found ≠ type then .error (.runtimeError ("\"" ++ name ++ "\" type error")) else .ok ()

def int2String (x : Int) : List UInt8 :=
  [UInt8.ofNat (x % 256).toNat, UInt8.ofNat (x / 2 ^ 8 % 256).toNat,
    UInt8.ofNat (x / 2 ^ 16 % 256).toNat, UInt8.ofNat (x / 2 ^ 24 % 256).toNat]

theorem int2String_eq (x : Int) : int2String x = encode x := by
  simp [int2String, encode, List.range_succ]

/-- The disk with other contents of one file. -/
def store (disk : Disk) (name : String) (stream : FileStream) : Disk :=
  fun other => if other = fileName name then some stream.content else disk other

@[simp] theorem store_fileName (disk : Disk) (name : String) (stream : FileStream) :
    store disk name stream (fileName name) = some stream.content := by
  simp [store]

/-- `file.read((char *) &x, 4)` for a variable that holds the given bytes. -/
def readInt (stream : FileStream) (old : List UInt8) : Int × FileStream :=
  let (bytes, stream) := stream.readInto old
  (decode bytes, stream)

section Calls

variable {T : Type} (codec : Codec T) (file : File) (name : String)

def modify (val : T) (disk : Disk) : Except FileError Disk := do
  file.checkVar name FILE_VALUE
  return store disk name (FileStream.write { content := [] } (codec.serialize val))

def getValue (memory : Memory) (disk : Disk) : Except FileError T := do
  file.checkVar name FILE_VALUE
  match disk (fileName name) with
  | none => throw (.runtimeError "cannot open file")
  | some content =>
      -- The buffer is as large as the file, which is read whole.
      match codec.fromBuffer memory content with
      | none => throw .archiveException
      | some value => return value

/-- `append` opens the file, or creates it with an empty vector. -/
def openAppend (disk : Disk) : Int × FileStream :=
  match disk (fileName name) with
  | none => (4, FileStream.write { content := [] } (encode 4))
  | some content => readInt { content } (encode 4)

def append (val : T) (disk : Disk) : Except FileError Disk := do
  file.checkVar name FILE_VECTOR
  let (length, stream) := openAppend name disk
  let stream := stream.seek length
  let valData := codec.serialize val
  let dataSize := int2String (wrap valData.length)
  let valData := dataSize ++ valData ++ dataSize
  let stream := stream.write valData
  let length := wrap (length + valData.length)
  let stream := stream.seek 0
  let stream := stream.write (encode length)
  return store disk name stream

/-- The loop of `getVector`, for a number of turns; nothing when these do not suffice. -/
def scan (memory : Nat → Memory) (length : Int) :
    Nat → FileStream → List T → Option (Except FileError (List T))
  | 0, _, _ => none
  | turns + 1, stream, ans =>
      if stream.tell < length then
        let unset := memory ans.length
        let (size, stream) := readInt stream (unset.bytes .size 4)
        if size < 0 then some (.error .badArrayNewLength)
        else
          let (buffer, stream) := stream.readInto (unset.bytes .buffer size.toNat)
          -- The second size is read and compared, but the error is made without being thrown.
          let (_, stream) := readInt stream (unset.bytes .size1 4)
          match codec.fromBuffer unset buffer with
          | none => some (.error .archiveException)
          | some value => scan memory length turns stream (ans ++ [value])
      else some (.ok ans)

def getVector (memory : Nat → Memory) (turns : Nat) (disk : Disk) :
    Option (Except FileError (List T)) :=
  match file.checkVar name FILE_VECTOR with
  | .error error => some (.error error)
  | .ok () =>
      match disk (fileName name) with
      | none => some (.error (.runtimeError "cannot open file"))
      | some content =>
          let (length, stream) := readInt { content } ((memory 0).bytes .length 4)
          scan codec memory length turns stream []

def pop (memory : Memory) (disk : Disk) : Except FileError Disk := do
  file.checkVar name FILE_VECTOR
  match disk (fileName name) with
  | none => throw (.runtimeError "cannot open file")
  | some content =>
      let (length, stream) := readInt { content } (memory.bytes .length 4)
      let stream := stream.seek (wrap (length - 4))
      let (size, stream) := readInt stream (memory.bytes .size 4)
      let stream := stream.seekBy (wrap (wrap (-size) - 8))
      -- As in `getVector`, nothing follows from a second size that differs.
      let (_, stream) := readInt stream (memory.bytes .size1 4)
      let length := wrap (length - wrap (size + 8))
      let stream := stream.seek 0
      let stream := stream.write (encode length)
      return store disk name stream

def clearFile (disk : Disk) : Disk :=
  fun other => if other = fileName name then none else disk other

@[simp] theorem clearFile_fileName (disk : Disk) : clearFile name disk (fileName name) = none := by
  simp [clearFile]

end Calls

/-- A call that changes a vector; `pop` comes with what its variables hold before. -/
inductive Call (T : Type)
  | append (val : T)
  | pop (memory : Memory)

variable {T : Type}

/-- Make one call. -/
def Call.run (codec : Codec T) (file : File) (name : String) (disk : Disk) :
    Call T → Except FileError Disk
  | .append val => file.append codec name val disk
  | .pop memory => file.pop name memory disk

end File

end Quintet
