import Mathlib.Data.List.Forall2
import QuintetRaft.Safety.FileScan

/-!
# Vectors in files

A file that `append` and `pop` have made holds, behind the length, the elements of the vector one
after the other, whatever stands behind the recorded length.
-/

namespace Quintet

open FourBytes

namespace File

variable {T : Type} {codec : Codec T} {file : File} {name : String} {disk : Disk}
  {datas : List (List UInt8)} {data content old : List UInt8} {val : T} {call : Call T}
  {calls : List (Call T)} {xs : List T}

/-! ## The format -/

/-- One element with its size before and after it. -/
def record (data : List UInt8) : List UInt8 :=
  encode data.length ++ (data ++ encode data.length)

@[simp] theorem record_length : (record data).length = data.length + 8 := by
  simp only [record, List.length_append, encode_length]
  omega

/-- The elements one after the other. -/
def body (datas : List (List UInt8)) : List UInt8 := datas.flatMap record

theorem body_cons : body (data :: datas) = record data ++ body datas := by
  simp [body]

theorem body_concat : body (datas ++ [data]) = body datas ++ record data := by
  simp [body]

/-- The length that the file begins with. -/
def recordedLength (datas : List (List UInt8)) : Nat := 4 + (body datas).length

theorem recordedLength_concat (datas : List (List UInt8)) (data : List UInt8) :
    recordedLength (datas ++ [data]) = recordedLength datas + (data.length + 8) := by
  simp [recordedLength, body_concat, Nat.add_assoc]

/-- The content of a file that holds a vector of elements. -/
structure Holds (content : List UInt8) (datas : List (List UInt8)) : Prop where
  /-- The length fits. -/
  small : recordedLength datas < 2 ^ 31
  /-- The elements stand behind the length; what follows is left over. -/
  layout : ∃ stale, content = encode (recordedLength datas) ++ (body datas ++ stale)

/-- The file of a name holds a vector of elements. -/
def Stores (disk : Disk) (name : String) (datas : List (List UInt8)) : Prop :=
  ∃ content, disk (fileName name) = some content ∧ Holds content datas

namespace Holds

theorem body_small (holds : Holds content datas) : (body datas).length < 2 ^ 31 :=
  Nat.lt_of_le_of_lt (Nat.le_add_left _ 4) holds.small

theorem readLength (holds : Holds content datas) (size : old.length = 4) :
    readInt { content } old = ((recordedLength datas : Int), { content, pos := 4 }) := by
  obtain ⟨stale, layout⟩ := holds.layout
  exact readInt_append [] rfl layout rfl (fits_natCast holds.small) size

end Holds

/-! ## `append` -/

theorem openAppend_of_absent (absent : disk (fileName name) = none) :
    openAppend name disk =
      ((recordedLength [] : Int), { content := encode 4, pos := 4 }) := by
  simp [openAppend, absent, FileStream.write, recordedLength, body]

theorem holds_nil : Holds (encode 4) [] where
  small := by decide
  layout := ⟨[], rfl⟩

theorem openAppend_of_stores (present : disk (fileName name) = some content)
    (holds : Holds content datas) :
    openAppend name disk = ((recordedLength datas : Int), { content, pos := 4 }) := by
  simp only [openAppend, present]
  exact holds.readLength encode_length

/-- Go back to the beginning and write the length. -/
theorem seek_write_length {stream : FileStream} {header rest : List UInt8} {length : Int}
    (content : stream.content = header ++ rest) (size : header.length = 4)
    (good : stream.failed = false) :
    ((stream.seek 0).write (encode length)).content = encode length ++ rest := by
  obtain ⟨_, _, _⟩ := stream
  subst content good
  simp [FileStream.seek, FileStream.write, ← size]

/-- `append` writes the element behind the recorded length, and then the length. -/
theorem append_content (codec : Codec T) (val : T)
    (registered : file.vars name = some FILE_VECTOR) {length : Nat}
    {header bytes stale : List UInt8}
    (opened : openAppend name disk =
      ((length : Int), { content := header ++ (bytes ++ stale), pos := 4 }))
    (size : header.length = 4) (upTo : length = 4 + bytes.length) :
    ∃ after stale', file.append codec name val disk = .ok after ∧
      after (fileName name) =
        some (encode ((length + ((codec.serialize val).length + 8) : Nat) : Int) ++
          (bytes ++ (record (codec.serialize val) ++ stale'))) := by
  have element : encode (wrap (codec.serialize val).length) ++ codec.serialize val ++
      encode (wrap (codec.serialize val).length) = record (codec.serialize val) := by
    rw [encode_wrap, List.append_assoc]
    rfl
  have front : (header ++ bytes).length = length := by
    rw [List.length_append, size, upTo]
  have written : (FileStream.seek { content := header ++ (bytes ++ stale), pos := 4 } length).write
      (record (codec.serialize val)) =
        { content := header ++ (bytes ++ (record (codec.serialize val) ++
            stale.drop (record (codec.serialize val)).length))
          pos := length + (record (codec.serialize val)).length } := by
    rw [FileStream.seek_natCast rfl, FileStream.write_append (header ++ bytes) stale front.symm
      (List.append_assoc _ _ _).symm rfl, front]
    simp only [List.append_assoc]
  simp only [append, checkVar_of_registered registered, opened, int2String_eq, element, written]
  refine ⟨_, stale.drop (record (codec.serialize val)).length, rfl, ?_⟩
  rw [store_fileName, seek_write_length rfl size rfl, encode_wrap, record_length]
  rfl

theorem append_of_opened (codec : Codec T) (val : T)
    (registered : file.vars name = some FILE_VECTOR)
    (opened : openAppend name disk = ((recordedLength datas : Int), { content, pos := 4 }))
    (holds : Holds content datas)
    (small : recordedLength (datas ++ [codec.serialize val]) < 2 ^ 31) :
    ∃ after, file.append codec name val disk = .ok after ∧
      Stores after name (datas ++ [codec.serialize val]) := by
  obtain ⟨stale, layout⟩ := holds.layout
  rw [layout] at opened
  obtain ⟨after, stale', made, found⟩ :=
    append_content codec val registered opened encode_length rfl
  refine ⟨after, made, _, found, small, stale', ?_⟩
  rw [recordedLength_concat, body_concat, List.append_assoc]

/-! ## `pop` -/

theorem pop_concat (registered : file.vars name = some FILE_VECTOR)
    (present : disk (fileName name) = some content) (holds : Holds content (datas ++ [data]))
    (memory : Memory) :
    ∃ after, file.pop name memory disk = .ok after ∧ Stores after name datas := by
  obtain ⟨stale, layout⟩ := holds.layout
  have small := holds.small
  have grown := recordedLength_concat datas data
  have before : (encode (recordedLength (datas ++ [data])) ++ body datas).length =
      recordedLength datas := by
    simp [recordedLength]
  have within : (encode (recordedLength (datas ++ [data])) ++ body datas ++
      (encode data.length ++ data)).length = recordedLength datas + (4 + data.length) := by
    rw [List.length_append, before, List.length_append, encode_length]
  have last : readInt (FileStream.seek { content, pos := 4 }
      (wrap ((recordedLength (datas ++ [data]) : Int) - 4))) (memory.bytes .size 4) =
        ((data.length : Int), { content, pos := recordedLength (datas ++ [data]) }) := by
    rw [wrap_natCast (recordedLength datas + (4 + data.length)) (by omega) (by omega),
      FileStream.seek_natCast rfl, readInt_append _ within.symm
        (by rw [layout, body_concat, record]; simp only [List.append_assoc]; rfl) rfl
        (fits_natCast (by omega)) (Memory.bytes_length _ _ _)]
    have eq : recordedLength datas + (4 + data.length) + 4 = recordedLength (datas ++ [data]) := by
      omega
    rw [within, eq]
  have first : readInt (FileStream.seekBy { content, pos := recordedLength (datas ++ [data]) }
      (wrap (wrap (-(data.length : Int)) - 8))) (memory.bytes .size1 4) =
        ((data.length : Int), { content, pos := recordedLength datas + 4 }) := by
    have target : ((recordedLength (datas ++ [data]) : Int) + -((data.length + 8 : Nat) : Int)) =
        recordedLength datas := by omega
    rw [wrap_neg_natCast data.length rfl (by omega),
      wrap_neg_natCast (data.length + 8) (by omega) (by omega), FileStream.seekBy,
      target, FileStream.seek_natCast rfl, readInt_append _ before.symm
        (by rw [layout, body_concat, record]; simp only [List.append_assoc]; rfl) rfl
        (fits_natCast (by omega)) (Memory.bytes_length _ _ _)]
    rw [before]
  have length : wrap ((recordedLength (datas ++ [data]) : Int) - wrap ((data.length : Int) + 8)) =
      recordedLength datas := by
    have step : wrap ((data.length : Int) + 8) = (data.length + 8 : Nat) :=
      wrap_natCast _ rfl (by omega)
    rw [step]
    exact wrap_natCast _ (by omega) (by omega)
  simp only [pop, checkVar_of_registered registered, present,
    holds.readLength (Memory.bytes_length _ _ _), last, first, length]
  refine ⟨_, rfl, _, store_fileName _ _ _, by omega, record data ++ stale, ?_⟩
  rw [seek_write_length layout encode_length rfl, body_concat, List.append_assoc]

/-- On the empty vector `pop` seeks to a negative position, and then writes nothing. -/
theorem pop_nil (registered : file.vars name = some FILE_VECTOR)
    (present : disk (fileName name) = some content) (holds : Holds content [])
    (memory : Memory) :
    ∃ after, file.pop name memory disk = .ok after ∧ Stores after name [] := by
  obtain ⟨stale, layout⟩ := holds.layout
  have last : readInt (FileStream.seek { content, pos := 4 }
      (wrap ((recordedLength [] : Int) - 4))) (memory.bytes .size 4) =
        (4, { content, pos := 4 }) := by
    have start : wrap ((recordedLength [] : Int) - 4) = ((0 : Nat) : Int) := by decide
    rw [start, FileStream.seek_natCast rfl]
    exact readInt_append [] rfl layout rfl (fits_natCast holds.small) (Memory.bytes_length _ _ _)
  have first : readInt (FileStream.seekBy { content, pos := 4 } (wrap (wrap (-4) - 8)))
      (memory.bytes .size1 4) =
        (decode (memory.bytes .size1 4), { content, pos := 4, failed := true }) := by
    have target : wrap (wrap (-4) - 8) = -12 := by decide
    rw [target, FileStream.seekBy_of_negative rfl (by simp), readInt,
      FileStream.readInto_of_failed rfl]
  simp only [pop, checkVar_of_registered registered, present,
    holds.readLength (Memory.bytes_length _ _ _), last, first, FileStream.seek_of_failed,
    FileStream.write_of_failed]
  exact ⟨_, rfl, content, store_fileName _ _ _, holds⟩

/-- `pop` removes the last element, if there is one. -/
theorem pop_stores (registered : file.vars name = some FILE_VECTOR)
    (stores : Stores disk name datas) (memory : Memory) :
    ∃ after, file.pop name memory disk = .ok after ∧ Stores after name datas.dropLast := by
  obtain ⟨content, present, holds⟩ := stores
  rcases List.eq_nil_or_concat' datas with rfl | ⟨front, data, rfl⟩
  · exact pop_nil registered present holds memory
  · rw [List.dropLast_concat]
    exact pop_concat registered present holds memory

/-! ## `getVector` -/

/-- The loop takes the elements for records, one after the other. -/
theorem records_body (small : (body datas).length < 2 ^ 31) : Records (body datas) datas := by
  induction datas with
  | nil => exact .nil
  | cons data datas ih =>
      rw [body_cons, List.length_append, record_length] at small
      have later := @Records.cons data _ _ _ (by omega) (@encode_length data.length) (ih (by omega))
      rw [body_cons, record]
      simpa only [List.append_assoc] using later

/-- `getVector` returns what the elements are read as. -/
theorem getVector_of_stores (registered : file.vars name = some FILE_VECTOR)
    (stores : Stores disk name datas) (memory : Nat → Memory) {turns : Nat}
    (enough : datas.length < turns) :
    file.getVector codec name memory turns disk =
      some ((values codec memory 0 datas).elim (.error .archiveException) .ok) := by
  obtain ⟨content, present, holds⟩ := stores
  obtain ⟨stale, layout⟩ := holds.layout
  rw [layout] at present
  exact getVector_of_records registered (records_body holds.body_small) present encode_length
    (decode_encode (fits_natCast holds.small)) enough

/-- With what happens to stand behind the buffers, from a turn on, the bytes of every value are
read as the value. -/
def EachReadBack (codec : Codec T) (memory : Nat → Memory) : Nat → List T → Prop
  | _, [] => True
  | turn, val :: vals => codec.fromBuffer (memory turn) (codec.serialize val) = some val ∧
      EachReadBack codec memory (turn + 1) vals

instance decidableEachReadBack [DecidableEq T] (codec : Codec T) (memory : Nat → Memory) :
    (turn : Nat) → (vals : List T) → Decidable (EachReadBack codec memory turn vals)
  | _, [] => .isTrue trivial
  | turn, _ :: vals =>
      have := decidableEachReadBack codec memory (turn + 1) vals
      inferInstanceAs (Decidable (_ ∧ _))

theorem values_serialize_iff {memory : Nat → Memory} {turn : Nat} :
    values codec memory turn (xs.map codec.serialize) = some xs ↔
      EachReadBack codec memory turn xs := by
  induction xs generalizing turn with
  | nil => exact iff_of_true rfl trivial
  | cons val vals ih =>
      rw [List.map_cons, EachReadBack, ← ih]
      cases read : codec.fromBuffer (memory turn) (codec.serialize val) with
      | none => simp [values_cons_of_none read]
      | some first =>
          rw [values_cons_of_some read, Option.map_eq_some_iff, Option.some.injEq]
          constructor
          · rintro ⟨rest, later, same⟩
            obtain ⟨rfl, rfl⟩ := List.cons.inj same
            exact ⟨rfl, later⟩
          · rintro ⟨rfl, later⟩
            exact ⟨vals, later, rfl⟩

theorem getVector_eq_ok_iff (registered : file.vars name = some FILE_VECTOR)
    (stores : Stores disk name (xs.map codec.serialize)) (memory : Nat → Memory) {turns : Nat}
    (enough : xs.length < turns) :
    file.getVector codec name memory turns disk = some (.ok xs) ↔
      EachReadBack codec memory 0 xs := by
  rw [getVector_of_stores registered stores memory (by rwa [List.length_map]), Option.some.injEq,
    ← values_serialize_iff]
  cases values codec memory 0 (xs.map codec.serialize) with
  | none => simp
  | some vals => simp

/-! ## Sequences of calls -/

/-- What a call does to the vector. -/
def Call.apply (xs : List T) : Call T → List T
  | .append val => xs ++ [val]
  | .pop _ => xs.dropLast

/-- An archive without zeros that shows where it ends is read as its value, whatever stands behind
the buffer. -/
theorem reads_of_delimited (nonzero : 0 ∉ codec.serialize val)
    (delimited : ∀ rest, codec.deserialize (codec.serialize val ++ rest) = some val) :
    codec.Reads (codec.serialize val) val := by
  intro memory
  have whole : cString (codec.serialize val ++ memory.behind) =
      codec.serialize val ++ cString memory.behind := by
    refine List.takeWhile_append_of_pos fun byte member => ?_
    have apart : byte ≠ 0 := fun zero => nonzero (zero ▸ member)
    simp [apart]
  rw [Codec.fromBuffer, whole]
  exact delimited _

/-- What an archive begins with. -/
def archiveHeader : List UInt8 :=
  "22 serialization::archive 15 ".toList.map fun char => UInt8.ofNat char.toNat

/-- A decimal digit. -/
def isDigit (byte : UInt8) : Bool := 48 ≤ byte && byte ≤ 57

/-- The number behind the header, as far as there are digits, and what follows it. -/
def readNumber (archive : List UInt8) : Option (Nat × List UInt8) :=
  let digits := (archive.drop archiveHeader.length).takeWhile isDigit
  if archive.take archiveHeader.length ≠ archiveHeader ∨ digits = [] then none
  else
    some (digits.foldl (fun number digit => 10 * number + (digit.toNat - 48)) 0,
      (archive.drop archiveHeader.length).dropWhile isDigit)

/-- Archives of truth values, which are numbers. -/
def boolCodec : Codec Bool where
  serialize val := archiveHeader ++ [if val then 49 else 48]
  deserialize archive := do
    let (number, _) ← readNumber archive
    if number = 0 then some false else if number = 1 then some true else none

/-- Archives of strings, which begin with their length; bytes that are missing are zeros. -/
def stringCodec : Codec (List UInt8) where
  serialize val :=
    archiveHeader ++ (Nat.toDigits 10 val.length).map (fun char => UInt8.ofNat char.toNat) ++
      32 :: val
  deserialize archive := do
    let (length, rest) ← readNumber archive
    let bytes := rest.drop 1
    return bytes.take length ++ List.replicate (length - bytes.length) 0

/-- A program with one vector. -/
def oneVector : File :=
  { vars := fun name => if name = "vectorTest" then some FILE_VECTOR else none }

end File

end Quintet
