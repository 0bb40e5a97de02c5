import Mathlib.Algebra.Ring.Nat
import Mathlib.Data.List.Basic
import Mathlib.Data.List.Pairwise

/-!
# Messages of tagged fields

A wire format in which a message is a sequence of fields, each a tag and a payload.  Fields with
their default value are not written; fields with an unknown tag are kept aside; a field that comes
again replaces a scalar, is merged into a nested message, and is appended to a repeated one.  How
tags, scalars and lengths are coded is a parameter.
-/

namespace WireFormat

abbrev Bytes := List UInt8

/-- Messages from this size on are neither written nor read. -/
def sizeLimit : ℕ := 2 ^ 31

/-- How the values of one type are written and read. -/
structure Scalar (α : Type) where
  /-- The bytes of a value. -/
  write : α → Bytes
  /-- How many there are. -/
  size : α → ℕ
  /-- Read one value, and give the bytes behind it. -/
  read : Bytes → Option (α × Bytes)
  /-- The values that can be read. -/
  Valid : α → Prop := fun _ => True

/-- What is written has the announced size and is read back, whatever follows, or refused. -/
structure Scalar.Lawful {α : Type} (scalar : Scalar α) : Prop where
  length_write : ∀ value, (scalar.write value).length = scalar.size value
  read_write : ∀ value rest, scalar.size value < sizeLimit → scalar.Valid value →
    scalar.read (scalar.write value ++ rest) = some (value, rest)
  refuses : ∀ value rest, scalar.size value < sizeLimit → ¬ scalar.Valid value →
    scalar.read (scalar.write value ++ rest) = none
  read_valid : ∀ {bytes value rest}, scalar.read bytes = some (value, rest) → scalar.Valid value
  read_shrinks : ∀ {bytes value rest}, scalar.read bytes = some (value, rest) →
    rest.length ≤ bytes.length

/-- A tag with its payload. -/
structure Piece where
  /-- The tag. -/
  tag : ℕ
  /-- What stands behind it. -/
  payload : Bytes
  deriving DecidableEq, Repr

/-- Fields that a class does not know, in the order in which they have come. -/
abbrev UnknownFieldSet := List Piece

/-- The coding of tags and lengths. -/
structure Coding where
  writeTag : ℕ → Bytes
  /-- How many bytes a tag has. -/
  sizeTag : ℕ → ℕ
  /-- The next tag; none at the end of the input and where there is no valid tag. -/
  readTag : Bytes → Option (ℕ × Bytes)
  /-- Length of a payload. -/
  length : Scalar ℕ
  /-- The part of the input that a payload of a given length is read from, and what follows. -/
  limit : ℕ → Bytes → Option (Bytes × Bytes)
  /-- Read the payload of an unknown tag; it is given as it will be written. -/
  skipField : ℕ → Bytes → Option (Bytes × Bytes)
  /-- Unknown fields are written; they are kept in any case. -/
  preservesUnknowns : Bool

/-- Tags of one byte are read back, payloads are found where their length says, and what is kept of
an unknown field is read back. -/
structure Coding.Lawful (coding : Coding) : Prop where
  length_writeTag : ∀ tag, (coding.writeTag tag).length = coding.sizeTag tag
  sizeTag_small : ∀ tag, 0 < tag → tag < 128 → coding.sizeTag tag = 1
  readTag_nil : coding.readTag [] = none
  readTag_write : ∀ tag rest, 0 < tag → tag < 2 ^ 32 →
    coding.readTag (coding.writeTag tag ++ rest) = some (tag, rest)
  readTag_bounds : ∀ {bytes tag rest}, coding.readTag bytes = some (tag, rest) →
    0 < tag ∧ tag < 2 ^ 32
  readTag_shrinks : ∀ {bytes tag rest}, coding.readTag bytes = some (tag, rest) →
    rest.length < bytes.length
  length_writeLength : ∀ length, (coding.length.write length).length = coding.length.size length
  readLength_write : ∀ length rest, length < sizeLimit →
    coding.length.read (coding.length.write length ++ rest) = some (length, rest)
  readLength_shrinks : ∀ {bytes length rest}, coding.length.read bytes = some (length, rest) →
    rest.length ≤ bytes.length
  limit_append : ∀ inner rest, coding.limit inner.length (inner ++ rest) = some (inner, rest)
  limit_shrinks : ∀ {length bytes inner rest}, coding.limit length bytes = some (inner, rest) →
    rest.length ≤ bytes.length
  skipField_kept : ∀ {tag bytes kept rest}, coding.skipField tag bytes = some (kept, rest) →
    ∀ rest', coding.skipField tag (kept ++ rest') = some (kept, rest')
  skipField_shrinks : ∀ {tag bytes kept rest}, coding.skipField tag bytes = some (kept, rest) →
    rest.length ≤ bytes.length

/-- The functions of one class of messages. -/
structure MessageClass (M : Type) where
  /-- A message without fields. -/
  empty : M
  /-- Read fields into a message up to the end of the input or an invalid tag, and give what is
  left. -/
  mergePartial : M → Bytes → Option (M × Bytes)
  /-- The bytes of a message. -/
  serialize : M → Bytes
  /-- How many there are. -/
  byteSize : M → ℕ
  /-- `mergeFrom source target` puts the fields of a message into another one. -/
  mergeFrom : M → M → M
  /-- The messages whose scalars can all be read. -/
  Valid : M → Prop
  /-- The messages whose unknown fields are such as are kept, and are written. -/
  Whole : M → Prop

namespace MessageClass

variable {M : Type} (messages : MessageClass M)

/-- Read a message that takes up the whole input. -/
def parse (bytes : Bytes) : Option M :=
  match messages.mergePartial messages.empty bytes with
  | some (msg, []) => some msg
  | _ => none

/-- Overwrite a message. -/
def copyFrom (source : M) : M := messages.mergeFrom source messages.empty

/-- Reading what was written is the same as merging, or fails. -/
structure Lawful (coding : Coding) : Prop where
  length_serialize : ∀ msg, (messages.serialize msg).length = messages.byteSize msg
  mergePartial_nil : ∀ target, messages.mergePartial target [] = some (target, [])
  mergePartial_serialize : ∀ msg target rest, messages.byteSize msg < sizeLimit →
    messages.Whole msg → messages.Valid msg →
      messages.mergePartial target (messages.serialize msg ++ rest) =
        messages.mergePartial (messages.mergeFrom msg target) rest
  refuses : ∀ msg target rest, messages.byteSize msg < sizeLimit → messages.Whole msg →
    ¬ messages.Valid msg → messages.mergePartial target (messages.serialize msg ++ rest) = none
  mergeFrom_empty : ∀ msg, messages.mergeFrom msg messages.empty = msg
  valid_empty : messages.Valid messages.empty
  whole_empty : messages.Whole messages.empty
  /-- What has been read is valid. -/
  mergePartial_valid : ∀ {target bytes msg rest},
    messages.mergePartial target bytes = some (msg, rest) → messages.Valid target →
      messages.Valid msg
  /-- What has been read is whole, unless unknown fields are not written. -/
  mergePartial_whole : ∀ {target bytes msg rest},
    messages.mergePartial target bytes = some (msg, rest) → coding.preservesUnknowns = true →
      messages.Whole target → messages.Whole msg

variable {messages} {coding : Coding}

theorem parse_eq_some {bytes : Bytes} {msg : M} :
    messages.parse bytes = some msg ↔
      messages.mergePartial messages.empty bytes = some (msg, []) := by
  unfold parse
  split
  · rename_i found merged
    rw [merged, Option.some.injEq, Option.some.injEq, Prod.mk.injEq, and_iff_left rfl]
  · rename_i other
    exact iff_of_false (by simp) (other msg)

theorem Lawful.merge_alone (lawful : messages.Lawful coding) {msg : M} (target : M)
    (small : messages.byteSize msg < sizeLimit) (whole : messages.Whole msg)
    (valid : messages.Valid msg) :
    messages.mergePartial target (messages.serialize msg) =
      some (messages.mergeFrom msg target, []) := by
  have merged := lawful.mergePartial_serialize msg target [] small whole valid
  rw [List.append_nil] at merged
  rw [merged, lawful.mergePartial_nil]

theorem Lawful.refuses_alone (lawful : messages.Lawful coding) {msg : M} (target : M)
    (small : messages.byteSize msg < sizeLimit) (whole : messages.Whole msg)
    (invalid : ¬ messages.Valid msg) :
    messages.mergePartial target (messages.serialize msg) = none := by
  have refused := lawful.refuses msg target [] small whole invalid
  rwa [List.append_nil] at refused

theorem Lawful.parse_serialize (lawful : messages.Lawful coding) {msg : M}
    (small : messages.byteSize msg < sizeLimit) (whole : messages.Whole msg)
    (valid : messages.Valid msg) : messages.parse (messages.serialize msg) = some msg := by
  rw [parse_eq_some, lawful.merge_alone messages.empty small whole valid, lawful.mergeFrom_empty]

/-- A message with an invalid scalar is written, and refused by the reader. -/
theorem Lawful.parse_refuses (lawful : messages.Lawful coding) {msg : M}
    (small : messages.byteSize msg < sizeLimit) (whole : messages.Whole msg)
    (invalid : ¬ messages.Valid msg) : messages.parse (messages.serialize msg) = none := by
  rw [parse, lawful.refuses_alone messages.empty small whole invalid]

/-- What is read of the text of a message is the message, which then is valid. -/
theorem Lawful.parse_serialize_iff (lawful : messages.Lawful coding) {msg found : M}
    (small : messages.byteSize msg < sizeLimit) (whole : messages.Whole msg) :
    messages.parse (messages.serialize msg) = some found ↔ messages.Valid msg ∧ msg = found := by
  by_cases valid : messages.Valid msg
  · rw [lawful.parse_serialize small whole valid, Option.some.injEq, and_iff_right valid]
  · rw [lawful.parse_refuses small whole valid]
    exact iff_of_false (by simp) fun both => valid both.1

/-- The encodings of two messages behind each other are the encoding of the merged message. -/
theorem Lawful.parse_append (lawful : messages.Lawful coding) {first second : M}
    (small : messages.byteSize first < sizeLimit) (whole : messages.Whole first)
    (valid : messages.Valid first) (small' : messages.byteSize second < sizeLimit)
    (whole' : messages.Whole second) (valid' : messages.Valid second) :
    messages.parse (messages.serialize first ++ messages.serialize second) =
      some (messages.mergeFrom second first) := by
  rw [parse_eq_some, lawful.mergePartial_serialize first _ _ small whole valid,
    lawful.mergeFrom_empty, lawful.merge_alone first small' whole' valid']

end MessageClass

/-! ## Kinds of fields -/

/-- How the fields of one kind are written and read. -/
structure FieldKind (α : Type) where
  /-- What kind of payload stands behind the tag. -/
  wireType : ℕ
  /-- The value of a field that does not come. -/
  initial : α
  /-- Read a payload into a value. -/
  read : α → Bytes → Option (α × Bytes)
  /-- The payloads of a value. -/
  payloads : α → List Bytes
  /-- How many bytes these are, with their tags. -/
  size : α → ℕ
  /-- `join source target` puts a value into another one. -/
  join : α → α → α
  /-- The values whose scalars can all be read. -/
  Valid : α → Prop
  /-- The values whose unknown fields are such as are kept, and are written. -/
  Whole : α → Prop

namespace FieldKind

variable {α : Type} (kind : FieldKind α)

/-- Payloads that are read into a value, each to its end. -/
inductive Reads : α → List Bytes → α → Prop
  | nil {value : α} : Reads value [] value
  | cons {value middle last : α} {payload : Bytes} {payloads : List Bytes}
      (read : ∀ rest, kind.read value (payload ++ rest) = some (middle, rest))
      (tail : Reads middle payloads last) : Reads value (payload :: payloads) last

/-- Payloads of which one cannot be read. -/
inductive Refuses : α → List Bytes → Prop
  | here {value : α} {payload : Bytes} {payloads : List Bytes}
      (refused : ∀ rest, kind.read value (payload ++ rest) = none) :
      Refuses value (payload :: payloads)
  | later {value middle : α} {payload : Bytes} {payloads : List Bytes}
      (read : ∀ rest, kind.read value (payload ++ rest) = some (middle, rest))
      (tail : Refuses middle payloads) : Refuses value (payload :: payloads)

/-- Payloads have the announced size and are read back into any value, or refused. -/
structure Lawful (coding : Coding) : Prop where
  length_payloads : ∀ value,
    ((kind.payloads value).map fun payload => 1 + payload.length).sum = kind.size value
  read_shrinks : ∀ {value bytes result rest}, kind.read value bytes = some (result, rest) →
    rest.length ≤ bytes.length
  reads_payloads : ∀ value target, kind.size value < sizeLimit → kind.Whole value →
    kind.Valid value → kind.Reads target (kind.payloads value) (kind.join value target)
  refuses : ∀ value target, kind.size value < sizeLimit → kind.Whole value →
    ¬ kind.Valid value → kind.Refuses target (kind.payloads value)
  join_initial : ∀ value, kind.join value kind.initial = value
  valid_initial : kind.Valid kind.initial
  whole_initial : kind.Whole kind.initial
  read_valid : ∀ {value bytes result rest}, kind.read value bytes = some (result, rest) →
    kind.Valid value → kind.Valid result
  read_whole : ∀ {value bytes result rest}, kind.read value bytes = some (result, rest) →
    coding.preservesUnknowns = true → kind.Whole value → kind.Whole result

end FieldKind

section Kinds

variable {α : Type} (coding : Coding)

/-- One scalar. -/
def singular [DecidableEq α] (scalar : Scalar α) (wireType : ℕ) (default : α) : FieldKind α where
  wireType := wireType
  initial := default
  read _ bytes := scalar.read bytes
  payloads value := if value ≠ default then [scalar.write value] else []
  size value := if value ≠ default then 1 + scalar.size value else 0
  join source target := if source ≠ default then source else target
  Valid value := value ≠ default → scalar.Valid value
  Whole _ := True

/-- A message with its length in front. -/
def writeMessage (messages : MessageClass α) (msg : α) : Bytes :=
  coding.length.write (messages.byteSize msg) ++ messages.serialize msg

/-- How many bytes these are. -/
def messageSize (messages : MessageClass α) (msg : α) : ℕ :=
  coding.length.size (messages.byteSize msg) + messages.byteSize msg

/-- Read a message that has its length in front into another one. -/
def readMessage (messages : MessageClass α) (target : α) (bytes : Bytes) :
    Option (α × Bytes) := do
  let (length, bytes) ← coding.length.read bytes
  let (inner, rest) ← coding.limit length bytes
  match ← messages.mergePartial target inner with
  | (msg, []) => some (msg, rest)
  | _ => none

/-- At most one message. -/
def nested (messages : MessageClass α) : FieldKind (Option α) where
  wireType := 2
  initial := none
  read value bytes :=
    (readMessage coding messages (value.getD messages.empty) bytes).map
      fun (msg, rest) => (some msg, rest)
  payloads value := (value.map (writeMessage coding messages)).toList
  size value := (value.map fun msg => 1 + messageSize coding messages msg).getD 0
  join source target :=
    match source with
    | none => target
    | some msg => some (messages.mergeFrom msg (target.getD messages.empty))
  Valid value := ∀ msg ∈ value, messages.Valid msg
  Whole value := ∀ msg ∈ value, messages.Whole msg

/-- Any number of messages. -/
def repeated (messages : MessageClass α) : FieldKind (List α) where
  wireType := 2
  initial := []
  read values bytes :=
    (readMessage coding messages messages.empty bytes).map
      fun (msg, rest) => (values ++ [msg], rest)
  payloads values := values.map (writeMessage coding messages)
  size values := values.length + (values.map (messageSize coding messages)).sum
  join source target := target ++ source
  Valid values := ∀ msg ∈ values, messages.Valid msg
  Whole values := ∀ msg ∈ values, messages.Whole msg

end Kinds

/-! ## Fields -/

/-- A place in a message. -/
structure Place (M α : Type) where
  /-- What is there. -/
  get : M → α
  /-- Put something else there. -/
  set : α → M → M

/-- One field of a class of messages. -/
structure MessageField (M : Type) where
  /-- The number that selects the field. -/
  number : ℕ
  /-- The tag that is expected then. -/
  tag : ℕ
  /-- The type of its values. -/
  Value : Type
  /-- How these are written and read. -/
  kind : FieldKind Value
  /-- Where they stand in a message. -/
  place : Place M Value

/-- The fields of a class, in the order in which they are written, and the place of the fields that
it does not know. -/
structure Layout (M : Type) where
  /-- The fields. -/
  fields : List (MessageField M)
  /-- The others. -/
  unknown : Place M UnknownFieldSet

/-- Number of bits of a tag that say what kind of payload follows. -/
def tagTypeBits : ℕ := 3

/-- The tag of a field. -/
def makeTag (number wireType : ℕ) : ℕ := number <<< tagTypeBits ||| wireType

/-- The last tag that is looked up; all tags of the fields are smaller. -/
def cutoff : ℕ := 127

/-- Pieces behind each other. -/
def writePieces (coding : Coding) (pieces : List Piece) : Bytes :=
  pieces.flatMap fun piece => coding.writeTag piece.tag ++ piece.payload

namespace MessageField

variable {M : Type} (field : MessageField M)

/-- Read a payload into a message. -/
def merge (msg : M) (bytes : Bytes) : Option (M × Bytes) :=
  (field.kind.read (field.place.get msg) bytes).map
    fun (value, rest) => (field.place.set value msg, rest)

/-- The tags and payloads of the field. -/
def write (coding : Coding) (msg : M) : Bytes :=
  writePieces coding ((field.kind.payloads (field.place.get msg)).map
    (.mk (makeTag field.number field.kind.wireType)))

/-- How many bytes these are. -/
def size (msg : M) : ℕ := field.kind.size (field.place.get msg)

/-- `assign source target` puts the field of a message into another one. -/
def assign (source target : M) : M :=
  field.place.set (field.kind.join (field.place.get source) (field.place.get target)) target

end MessageField

section Fields

variable {M : Type} (coding : Coding) (layout : Layout M)

/-- The field that reads the payload of a tag. -/
def selected (fields : List (MessageField M)) (tag : ℕ) : Option (MessageField M) :=
  if tag ≤ cutoff then
    (fields.find? fun field => field.number == tag >>> tagTypeBits).filter
      fun field => tag % 256 == field.tag
  else none

/-- Keep a field that the class does not know. -/
def keep (piece : Piece) (msg : M) : M :=
  layout.unknown.set (layout.unknown.get msg ++ [piece]) msg

/-- Read fields, at most so many. -/
def mergeFields : ℕ → M → Bytes → Option (M × Bytes)
  | 0, _, _ => none
  | count + 1, msg, bytes =>
      match coding.readTag bytes with
      | none => some (msg, bytes)
      | some (tag, rest) =>
          match selected layout.fields tag with
          | some field => do
              let (msg, rest) ← field.merge msg rest
              mergeFields count msg rest
          | none => do
              let (payload, rest) ← coding.skipField tag rest
              mergeFields count (keep layout { tag, payload } msg) rest

/-- Read all fields; each takes a byte at least. -/
def mergePartialFields (msg : M) (bytes : Bytes) : Option (M × Bytes) :=
  mergeFields coding layout (bytes.length + 1) msg bytes

/-- Write the fields in a given order. -/
def writeFields (fields : List (MessageField M)) (msg : M) : Bytes :=
  fields.flatMap (·.write coding msg)

/-- Write the unknown fields. -/
def writeUnknown (msg : M) : Bytes :=
  if coding.preservesUnknowns then writePieces coding (layout.unknown.get msg) else []

/-- Count the bytes of the fields in a given order. -/
def sizeFields (fields : List (MessageField M)) (msg : M) : ℕ := (fields.map (·.size msg)).sum

/-- Count those of the unknown fields. -/
def sizeUnknown (msg : M) : ℕ :=
  if coding.preservesUnknowns then
    ((layout.unknown.get msg).map fun piece => coding.sizeTag piece.tag + piece.payload.length).sum
  else 0

/-- Put the fields of a message into another one in a given order. -/
def assignFields (fields : List (MessageField M)) (source target : M) : M :=
  fields.foldl (fun target field => field.assign source target) target

/-- Put the unknown fields of a message behind those of another one. -/
def assignUnknown (source target : M) : M :=
  layout.unknown.set (layout.unknown.get target ++ layout.unknown.get source) target

end Fields

/-- An unknown field such as is kept: its tag selects no field, and its payload is read as it is. -/
structure Piece.Kept {M : Type} (coding : Coding) (fields : List (MessageField M)) (piece : Piece) :
    Prop where
  positive : 0 < piece.tag
  small : piece.tag < 2 ^ 32
  unselected : selected fields piece.tag = none
  skipped : ∀ rest, coding.skipField piece.tag (piece.payload ++ rest) = some (piece.payload, rest)

namespace Layout

variable {M : Type} (coding : Coding) (layout : Layout M)

/-- Write all fields, the unknown ones last. -/
def write (msg : M) : Bytes :=
  writeFields coding layout.fields msg ++ writeUnknown coding layout msg

/-- Count the bytes of the unknown fields, and then those of the others in a given order. -/
def size (order : List (MessageField M)) (msg : M) : ℕ :=
  sizeUnknown coding layout msg + sizeFields order msg

/-- `assign order source target` puts the unknown fields of a message into another one, and then the
others in a given order. -/
def assign (order : List (MessageField M)) (source target : M) : M :=
  assignFields order source (assignUnknown layout source target)

/-- All scalars can be read. -/
def Valid (msg : M) : Prop :=
  ∀ field ∈ layout.fields, field.kind.Valid (field.place.get msg)

/-- All unknown fields, those of nested messages included, are such as are kept, and are
written. -/
structure Whole (msg : M) : Prop where
  fields : ∀ field ∈ layout.fields, field.kind.Whole (field.place.get msg)
  kept : ∀ piece ∈ layout.unknown.get msg, piece.Kept coding layout.fields
  written : coding.preservesUnknowns = false → layout.unknown.get msg = []

end Layout

/-! ## Kinds that are read back -/

section KindLaws

variable {α : Type} {coding : Coding} {messages : MessageClass α}

theorem singular_lawful [DecidableEq α] {scalar : Scalar α} (lawful : scalar.Lawful)
    {wireType : ℕ} {default : α} : (singular scalar wireType default).Lawful coding where
  length_payloads value := by
    simp only [singular]
    split_ifs
    · simp [lawful.length_write]
    · rfl
  read_shrinks read := lawful.read_shrinks read
  reads_payloads value target small _ valid := by
    simp only [singular] at small valid ⊢
    split_ifs at small ⊢ with present
    · exact .cons (fun rest => lawful.read_write value rest (by omega) (valid present)) .nil
    · exact .nil
  refuses value target small _ invalid := by
    simp only [singular, Classical.not_imp] at small invalid ⊢
    obtain ⟨present, invalid⟩ := invalid
    rw [if_pos present] at small ⊢
    exact .here fun rest => lawful.refuses value rest (by omega) invalid
  join_initial value := by
    simp only [singular]
    split_ifs with absent
    · rfl
    · exact (not_not.mp absent).symm
  valid_initial absent := absurd rfl absent
  whole_initial := trivial
  read_valid read _ _ := lawful.read_valid read
  read_whole _ _ _ := trivial

theorem readMessage_eq_some {target result : α} {bytes rest : Bytes} :
    readMessage coding messages target bytes = some (result, rest) ↔
      ∃ length behind inner, coding.length.read bytes = some (length, behind) ∧
        coding.limit length behind = some (inner, rest) ∧
          messages.mergePartial target inner = some (result, []) := by
  constructor
  · intro read
    obtain ⟨⟨length, behind⟩, lengthRead, read⟩ := Option.bind_eq_some_iff.mp read
    obtain ⟨⟨inner, outer⟩, limited, read⟩ := Option.bind_eq_some_iff.mp read
    obtain ⟨⟨msg, left⟩, merged, read⟩ := Option.bind_eq_some_iff.mp read
    cases left with
    | nil =>
        obtain ⟨rfl, rfl⟩ := Prod.mk.inj (Option.some.inj read)
        exact ⟨length, behind, inner, lengthRead, limited, merged⟩
    | cons => cases read
  · rintro ⟨length, behind, inner, lengthRead, limited, merged⟩
    simp only [readMessage, lengthRead, limited, merged, Option.bind_eq_bind, Option.bind_some]

theorem readMessage_shrinks (lawful : coding.Lawful) {target result : α} {bytes rest : Bytes}
    (read : readMessage coding messages target bytes = some (result, rest)) :
    rest.length ≤ bytes.length := by
  obtain ⟨length, behind, inner, lengthRead, limited, -⟩ := readMessage_eq_some.mp read
  exact Nat.le_trans (lawful.limit_shrinks limited) (lawful.readLength_shrinks lengthRead)

variable (lawful : coding.Lawful) (lawful' : messages.Lawful coding)

include lawful lawful'

/-- The text of a message is found behind its length. -/
theorem readMessage_writeMessage_eq {msg : α} (target : α) (rest : Bytes)
    (small : messages.byteSize msg < sizeLimit) :
    readMessage coding messages target (writeMessage coding messages msg ++ rest) =
      match messages.mergePartial target (messages.serialize msg) with
      | some (found, []) => some (found, rest)
      | _ => none := by
  rw [readMessage, writeMessage, List.append_assoc, lawful.readLength_write _ _ small,
    ← lawful'.length_serialize]
  simp only [Option.bind_eq_bind, Option.bind_some, lawful.limit_append]
  cases messages.mergePartial target (messages.serialize msg) with
  | none => rfl
  | some found =>
      obtain ⟨found, _ | ⟨byte, left⟩⟩ := found
      · rfl
      · rfl

theorem readMessage_writeMessage {msg : α} (target : α) (rest : Bytes)
    (small : messages.byteSize msg < sizeLimit) (whole : messages.Whole msg)
    (valid : messages.Valid msg) :
    readMessage coding messages target (writeMessage coding messages msg ++ rest) =
      some (messages.mergeFrom msg target, rest) := by
  rw [readMessage_writeMessage_eq lawful lawful' target rest small,
    lawful'.merge_alone target small whole valid]

theorem readMessage_refuses {msg : α} (target : α) (rest : Bytes)
    (small : messages.byteSize msg < sizeLimit) (whole : messages.Whole msg)
    (invalid : ¬ messages.Valid msg) :
    readMessage coding messages target (writeMessage coding messages msg ++ rest) = none := by
  rw [readMessage_writeMessage_eq lawful lawful' target rest small,
    lawful'.refuses_alone target small whole invalid]

theorem length_writeMessage (msg : α) :
    (writeMessage coding messages msg).length = messageSize coding messages msg := by
  simp only [writeMessage, messageSize, List.length_append, lawful.length_writeLength,
    lawful'.length_serialize]

theorem nested_lawful : (nested coding messages).Lawful coding where
  length_payloads value := by
    cases value with
    | none => rfl
    | some msg => simp [nested, length_writeMessage lawful lawful']
  read_shrinks read := by
    obtain ⟨⟨msg, rest⟩, read, same⟩ := Option.map_eq_some_iff.mp read
    cases same
    exact readMessage_shrinks lawful read
  reads_payloads value target small whole valid := by
    cases value with
    | none => exact .nil
    | some msg =>
        simp only [nested, Option.map_some, Option.getD_some, messageSize] at small
        refine .cons (fun rest => ?_) .nil
        exact Option.map_eq_some_iff.mpr ⟨_, readMessage_writeMessage lawful lawful' _ rest
          (by omega) (whole msg rfl) (valid msg rfl), rfl⟩
  refuses value target small whole invalid := by
    cases value with
    | none => exact absurd (fun _ member => absurd member (Option.not_mem_none _)) invalid
    | some msg =>
        simp only [nested, Option.map_some, Option.getD_some, messageSize] at small
        have refused : ¬ messages.Valid msg := fun valid => invalid fun _ same => by
          obtain rfl := Option.some.inj same
          exact valid
        refine .here fun rest => Option.map_eq_none_iff.mpr ?_
        exact readMessage_refuses lawful lawful' _ rest (by omega) (whole msg rfl) refused
  join_initial value := by
    cases value with
    | none => rfl
    | some msg => exact congrArg some (lawful'.mergeFrom_empty msg)
  valid_initial _ member := absurd member (Option.not_mem_none _)
  whole_initial _ member := absurd member (Option.not_mem_none _)
  read_valid := by
    intro value bytes result rest read valid
    obtain ⟨⟨msg, rest⟩, read, same⟩ := Option.map_eq_some_iff.mp read
    cases same
    rintro _ ⟨⟩
    obtain ⟨_, _, _, -, -, merged⟩ := readMessage_eq_some.mp read
    refine lawful'.mergePartial_valid merged ?_
    cases value with
    | none => exact lawful'.valid_empty
    | some target => exact valid target rfl
  read_whole := by
    intro value bytes result rest read preserves whole
    obtain ⟨⟨msg, rest⟩, read, same⟩ := Option.map_eq_some_iff.mp read
    cases same
    rintro _ ⟨⟩
    obtain ⟨_, _, _, -, -, merged⟩ := readMessage_eq_some.mp read
    refine lawful'.mergePartial_whole merged preserves ?_
    cases value with
    | none => exact lawful'.whole_empty
    | some target => exact whole target rfl

theorem repeated_lawful : (repeated coding messages).Lawful coding where
  length_payloads values := by
    simp only [repeated]
    induction values with
    | nil => rfl
    | cons msg values ih =>
        simp only [List.map_cons, List.sum_cons, List.length_cons, ih,
          length_writeMessage lawful lawful']
        omega
  read_shrinks read := by
    obtain ⟨⟨msg, rest⟩, read, same⟩ := Option.map_eq_some_iff.mp read
    cases same
    exact readMessage_shrinks lawful read
  reads_payloads values target small whole valid := by
    simp only [repeated] at small whole valid ⊢
    induction values generalizing target with
    | nil =>
        rw [List.append_nil]
        exact .nil
    | cons msg values ih =>
        simp only [List.length_cons, List.map_cons, List.sum_cons, messageSize] at small ih
        have read := fun rest => readMessage_writeMessage lawful lawful' messages.empty rest
          (show messages.byteSize msg < sizeLimit by omega) (whole msg List.mem_cons_self)
          (valid msg List.mem_cons_self)
        rw [lawful'.mergeFrom_empty] at read
        have later := ih (target ++ [msg]) (by omega)
          (fun other member => whole other (List.mem_cons_of_mem msg member))
          fun other member => valid other (List.mem_cons_of_mem msg member)
        rw [List.append_assoc, List.singleton_append] at later
        exact .cons (fun rest => Option.map_eq_some_iff.mpr ⟨_, read rest, rfl⟩) later
  refuses values target small whole invalid := by
    simp only [repeated] at small whole invalid ⊢
    induction values generalizing target with
    | nil => exact absurd (fun _ member => absurd member List.not_mem_nil) invalid
    | cons msg values ih =>
        simp only [List.length_cons, List.map_cons, List.sum_cons, messageSize] at small ih
        have inside : messages.byteSize msg < sizeLimit := by omega
        by_cases valid : messages.Valid msg
        · have read := fun rest => readMessage_writeMessage lawful lawful' messages.empty rest
            inside (whole msg List.mem_cons_self) valid
          rw [lawful'.mergeFrom_empty] at read
          have later := ih (target ++ [msg]) (by omega)
            (fun other member => whole other (List.mem_cons_of_mem msg member))
            fun rest => invalid (List.forall_mem_cons.mpr ⟨valid, rest⟩)
          exact .later (fun rest => Option.map_eq_some_iff.mpr ⟨_, read rest, rfl⟩) later
        · exact .here fun rest => Option.map_eq_none_iff.mpr <|
            readMessage_refuses lawful lawful' messages.empty rest inside
              (whole msg List.mem_cons_self) valid
  join_initial values := List.nil_append values
  valid_initial _ member := absurd member List.not_mem_nil
  whole_initial _ member := absurd member List.not_mem_nil
  read_valid := by
    intro values bytes result rest read valid
    obtain ⟨⟨msg, rest⟩, read, same⟩ := Option.map_eq_some_iff.mp read
    cases same
    obtain ⟨_, _, _, -, -, merged⟩ := readMessage_eq_some.mp read
    exact List.forall_mem_append.mpr
      ⟨valid, by simpa using lawful'.mergePartial_valid merged lawful'.valid_empty⟩
  read_whole := by
    intro values bytes result rest read preserves whole
    obtain ⟨⟨msg, rest⟩, read, same⟩ := Option.map_eq_some_iff.mp read
    cases same
    obtain ⟨_, _, _, -, -, merged⟩ := readMessage_eq_some.mp read
    exact List.forall_mem_append.mpr
      ⟨whole, by simpa using lawful'.mergePartial_whole merged preserves lawful'.whole_empty⟩

end KindLaws

/-! ## Fields that are read back -/

/-- The constants of a field fit together: the tag that is expected is the one that is written. -/
def Tagged (number wireType tag : ℕ) : Prop :=
  0 < number ∧ tag = makeTag number wireType ∧ tag >>> tagTypeBits = number ∧ tag ≤ cutoff

instance (number wireType tag : ℕ) : Decidable (Tagged number wireType tag) :=
  inferInstanceAs (Decidable (_ ∧ _))

/-- A place holds what was put there last. -/
structure Place.Lawful {M α : Type} (place : Place M α) : Prop where
  get_set : ∀ value msg, place.get (place.set value msg) = value
  set_get : ∀ msg, place.set (place.get msg) msg = msg
  set_set : ∀ value value' msg, place.set value (place.set value' msg) = place.set value msg

/-- What is put at one place leaves what is at the other. -/
structure Place.Apart {M α β : Type} (place : Place M α) (place' : Place M β) : Prop where
  get_set : ∀ value msg, place.get (place'.set value msg) = place.get msg
  get_set' : ∀ value msg, place'.get (place.set value msg) = place'.get msg

/-- A field reads what it has written. -/
structure MessageField.Lawful {M : Type} (coding : Coding) (field : MessageField M) : Prop where
  kind : field.kind.Lawful coding
  tagged : Tagged field.number field.kind.wireType field.tag
  place : field.place.Lawful

/-- The places of two fields are apart. -/
def MessageField.Apart {M : Type} (field other : MessageField M) : Prop :=
  field.place.Apart other.place

instance {M : Type} : Std.Symm (α := MessageField M) MessageField.Apart :=
  ⟨fun _ _ apart => ⟨apart.get_set', apart.get_set⟩⟩

/-- The fields have their own numbers and places, and there is nothing else in a message. -/
structure Layout.Lawful {M : Type} (coding : Coding) (layout : Layout M) : Prop where
  codes : coding.Lawful
  each : ∀ field ∈ layout.fields, field.Lawful coding
  distinct : (layout.fields.map MessageField.number).Nodup
  apart : layout.fields.Pairwise MessageField.Apart
  unknown : layout.unknown.Lawful
  aside : ∀ field ∈ layout.fields, field.place.Apart layout.unknown
  ext : ∀ msg other, (∀ field ∈ layout.fields, field.place.get msg = field.place.get other) →
    layout.unknown.get msg = layout.unknown.get other → msg = other

section Laws

variable {M : Type} {coding : Coding} {layout : Layout M} {fields : List (MessageField M)}
  {field other : MessageField M} {msg target source : M} {bytes rest payload : Bytes}

theorem Tagged.tag_pos {number wireType tag : ℕ} (tagged : Tagged number wireType tag) :
    0 < tag := by
  rcases Nat.eq_zero_or_pos tag with rfl | positive
  · have positive := tagged.1
    rw [← tagged.2.2.1, Nat.zero_shiftRight] at positive
    exact absurd positive (Nat.lt_irrefl 0)
  · exact positive

theorem Tagged.tag_lt {number wireType tag : ℕ} (tagged : Tagged number wireType tag) :
    tag < 128 :=
  Nat.lt_succ_of_le tagged.2.2.2

theorem MessageField.Lawful.write_eq (lawful : field.Lawful coding) (msg : M) :
    field.write coding msg =
      writePieces coding ((field.kind.payloads (field.place.get msg)).map (.mk field.tag)) := by
  rw [write, lawful.tagged.2.1]

@[simp] theorem writePieces_cons (piece : Piece) (pieces : List Piece) :
    writePieces coding (piece :: pieces) =
      coding.writeTag piece.tag ++ (piece.payload ++ writePieces coding pieces) := by
  rw [writePieces, List.flatMap_cons, List.append_assoc]
  rfl

theorem MessageField.Lawful.length_write (lawful : field.Lawful coding) (codes : coding.Lawful)
    (msg : M) : (field.write coding msg).length = field.size msg := by
  rw [lawful.write_eq, size, ← lawful.kind.length_payloads, writePieces, List.length_flatMap,
    List.map_map]
  congr 1
  refine List.map_congr_left fun payload _ => ?_
  rw [Function.comp_apply, List.length_append, codes.length_writeTag,
    codes.sizeTag_small _ lawful.tagged.tag_pos lawful.tagged.tag_lt]

theorem MessageField.Lawful.merge_shrinks (lawful : field.Lawful coding)
    (merged : field.merge target bytes = some (msg, rest)) : rest.length ≤ bytes.length := by
  obtain ⟨⟨value, rest⟩, read, same⟩ := Option.map_eq_some_iff.mp merged
  cases same
  exact lawful.kind.read_shrinks read

/-- A tag selects its field. -/
theorem selected_tag (lawful : layout.Lawful coding) (member : field ∈ layout.fields) :
    selected layout.fields field.tag = some field := by
  obtain ⟨-, -, number, upTo⟩ := (lawful.each field member).tagged
  have found : (layout.fields.find? fun other => other.number == field.number) = some field := by
    have distinct := lawful.distinct
    generalize layout.fields = fields at member distinct
    induction fields with
    | nil => exact absurd member List.not_mem_nil
    | cons head tail ih =>
        rw [List.map_cons, List.nodup_cons] at distinct
        rcases List.mem_cons.mp member with rfl | later
        · simp
        · have apart : head.number ≠ field.number := fun same =>
            distinct.1 (same ▸ List.mem_map_of_mem later)
          rw [List.find?_cons_of_neg (by simpa using apart)]
          exact ih later distinct.2
  have small : field.tag % 256 = field.tag :=
    Nat.mod_eq_of_lt (Nat.lt_of_le_of_lt upTo (by decide))
  rw [selected, if_pos upTo, number, found]
  simp [small]

/-- A selected field has the lower byte of the tag. -/
theorem selected_spec {tag : ℕ} (chosen : selected fields tag = some field) :
    field ∈ fields ∧ tag ≤ cutoff ∧ tag % 256 = field.tag := by
  have upTo : tag ≤ cutoff := by
    by_contra above
    rw [selected, if_neg above] at chosen
    cases chosen
  rw [selected, if_pos upTo] at chosen
  obtain ⟨found, same⟩ := Option.filter_eq_some_iff.mp chosen
  exact ⟨List.mem_of_find?_eq_some found, upTo, by simpa using same⟩

theorem selected_eq_some (lawful : layout.Lawful coding) {tag : ℕ} :
    selected layout.fields tag = some field ↔ field ∈ layout.fields ∧ tag = field.tag := by
  constructor
  · intro chosen
    obtain ⟨member, upTo, same⟩ := selected_spec chosen
    have small : tag % 256 = tag := Nat.mod_eq_of_lt (Nat.lt_of_le_of_lt upTo (by decide))
    exact ⟨member, small ▸ same⟩
  · rintro ⟨member, rfl⟩
    exact selected_tag lawful member

/-- The loop ends before its bound. -/
theorem mergeFields_enough (lawful : layout.Lawful coding) {count count' : ℕ}
    (enough : bytes.length < count) (enough' : bytes.length < count') (msg : M) :
    mergeFields coding layout count msg bytes = mergeFields coding layout count' msg bytes := by
  induction count generalizing count' bytes msg with
  | zero => exact absurd enough (Nat.not_lt_zero _)
  | succ count ih =>
      cases count' with
      | zero => exact absurd enough' (Nat.not_lt_zero _)
      | succ count' =>
          rw [mergeFields, mergeFields]
          cases read : coding.readTag bytes with
          | none => rfl
          | some tagged =>
              obtain ⟨tag, payload⟩ := tagged
              have shorter := lawful.codes.readTag_shrinks read
              dsimp only
              cases chosen : selected layout.fields tag with
              | none =>
                  dsimp only
                  cases skipped : coding.skipField tag payload with
                  | none => rfl
                  | some found =>
                      have shorter' := lawful.codes.skipField_shrinks skipped
                      exact ih (by omega) (by omega) _
              | some field =>
                  dsimp only
                  cases merged : field.merge msg payload with
                  | none => rfl
                  | some found =>
                      have member := ((selected_eq_some lawful).mp chosen).1
                      have shorter' := (lawful.each field member).merge_shrinks merged
                      exact ih (by omega) (by omega) _

/-! ## One piece -/

section Pieces

variable (lawful : layout.Lawful coding)

include lawful

/-- A field reads its payload. -/
theorem mergePartialFields_field (member : field ∈ layout.fields)
    (merged : field.merge target (payload ++ rest) = some (msg, rest)) :
    mergePartialFields coding layout target (coding.writeTag field.tag ++ (payload ++ rest)) =
      mergePartialFields coding layout msg rest := by
  have tagged := (lawful.each field member).tagged
  have tagRead := lawful.codes.readTag_write field.tag (payload ++ rest) tagged.tag_pos
    (Nat.lt_trans tagged.tag_lt (by decide))
  have shorter := lawful.codes.readTag_shrinks tagRead
  have shorter' := (lawful.each field member).merge_shrinks merged
  rw [mergePartialFields, mergeFields, tagRead]
  simp only [selected_tag lawful member, merged, Option.bind_eq_bind, Option.bind_some]
  exact mergeFields_enough lawful (by omega) (Nat.lt_succ_self _) msg

/-- A field refuses its payload. -/
theorem mergePartialFields_refuses (member : field ∈ layout.fields)
    (refused : field.merge target (payload ++ rest) = none) :
    mergePartialFields coding layout target (coding.writeTag field.tag ++ (payload ++ rest)) =
      none := by
  have tagged := (lawful.each field member).tagged
  have tagRead := lawful.codes.readTag_write field.tag (payload ++ rest) tagged.tag_pos
    (Nat.lt_trans tagged.tag_lt (by decide))
  rw [mergePartialFields, mergeFields, tagRead]
  simp only [selected_tag lawful member, refused, Option.bind_eq_bind, Option.bind_none]

/-- A field that the class does not know is kept. -/
theorem mergePartialFields_unknown {tag : ℕ} {kept : Bytes} (positive : 0 < tag)
    (small : tag < 2 ^ 32) (unselected : selected layout.fields tag = none)
    (skipped : coding.skipField tag (payload ++ rest) = some (kept, rest)) :
    mergePartialFields coding layout target (coding.writeTag tag ++ (payload ++ rest)) =
      mergePartialFields coding layout (keep layout ⟨tag, kept⟩ target) rest := by
  have tagRead := lawful.codes.readTag_write tag (payload ++ rest) positive small
  have shorter := lawful.codes.readTag_shrinks tagRead
  have shorter' := lawful.codes.skipField_shrinks skipped
  rw [mergePartialFields, mergeFields, tagRead]
  simp only [unselected, skipped, Option.bind_eq_bind, Option.bind_some]
  exact mergeFields_enough lawful (by omega) (Nat.lt_succ_self _) _

/-! ## What was written -/

/-- The payloads of a field are read one after the other. -/
theorem mergePartialFields_reads (member : field ∈ layout.fields) {payloads : List Bytes}
    {value last : field.Value} (reads : field.kind.Reads value payloads last)
    (here : field.place.get target = value) (rest : Bytes) :
    mergePartialFields coding layout target
        (writePieces coding (payloads.map (.mk field.tag)) ++ rest) =
      mergePartialFields coding layout (field.place.set last target) rest := by
  have place := (lawful.each field member).place
  induction reads generalizing target with
  | nil =>
      rw [← here, place.set_get]
      rfl
  | @cons value middle last payload payloads read _ ih =>
      have merged : field.merge target
          (payload ++ (writePieces coding (payloads.map (.mk field.tag)) ++ rest)) =
            some (field.place.set middle target, _) :=
        Option.map_eq_some_iff.mpr ⟨_, here ▸ read _, rfl⟩
      rw [List.map_cons, writePieces_cons, List.append_assoc, List.append_assoc,
        mergePartialFields_field lawful member merged, ih (place.get_set middle target),
        place.set_set]

/-- One of them is refused. -/
theorem mergePartialFields_refuses_reads (member : field ∈ layout.fields) {payloads : List Bytes}
    {value : field.Value} (refuses : field.kind.Refuses value payloads)
    (here : field.place.get target = value) (rest : Bytes) :
    mergePartialFields coding layout target
      (writePieces coding (payloads.map (.mk field.tag)) ++ rest) = none := by
  have place := (lawful.each field member).place
  induction refuses generalizing target with
  | here refused =>
      rw [List.map_cons, writePieces_cons, List.append_assoc, List.append_assoc]
      exact mergePartialFields_refuses lawful member (Option.map_eq_none_iff.mpr (here ▸ refused _))
  | @later value middle payload payloads read _ ih =>
      have merged : field.merge target
          (payload ++ (writePieces coding (payloads.map (.mk field.tag)) ++ rest)) =
            some (field.place.set middle target, _) :=
        Option.map_eq_some_iff.mpr ⟨_, here ▸ read _, rfl⟩
      rw [List.map_cons, writePieces_cons, List.append_assoc, List.append_assoc,
        mergePartialFields_field lawful member merged, ih (place.get_set middle target)]

/-- Fields that the class does not know are read one after the other. -/
theorem mergePartialFields_kept {pieces : List Piece}
    (kept : ∀ piece ∈ pieces, piece.Kept coding layout.fields) (target : M) (rest : Bytes) :
    mergePartialFields coding layout target (writePieces coding pieces ++ rest) =
      mergePartialFields coding layout
        (layout.unknown.set (layout.unknown.get target ++ pieces) target) rest := by
  induction pieces generalizing target with
  | nil =>
      rw [List.append_nil, lawful.unknown.set_get]
      rfl
  | cons piece pieces ih =>
      obtain ⟨positive, small, unselected, skipped⟩ := kept piece List.mem_cons_self
      rw [writePieces_cons, List.append_assoc, List.append_assoc,
        mergePartialFields_unknown lawful positive small unselected (skipped _),
        ih fun other member => kept other (List.mem_cons_of_mem piece member)]
      rw [keep, lawful.unknown.get_set, lawful.unknown.set_set, List.append_assoc,
        List.singleton_append]

/-- What is written of a field is read. -/
theorem mergePartialFields_write (member : field ∈ layout.fields)
    (small : field.size source < sizeLimit)
    (whole : field.kind.Whole (field.place.get source))
    (valid : field.kind.Valid (field.place.get source)) (target : M) (rest : Bytes) :
    mergePartialFields coding layout target (field.write coding source ++ rest) =
      mergePartialFields coding layout (field.assign source target) rest := by
  have reads := (lawful.each field member).kind.reads_payloads (field.place.get source)
    (field.place.get target) small whole valid
  rw [(lawful.each field member).write_eq]
  exact mergePartialFields_reads lawful member reads rfl rest

/-- What is written of fields is read. -/
theorem mergePartialFields_writeFields (included : fields ⊆ layout.fields)
    (small : sizeFields fields source < sizeLimit)
    (whole : ∀ field ∈ fields, field.kind.Whole (field.place.get source))
    (valid : ∀ field ∈ fields, field.kind.Valid (field.place.get source)) (target : M)
    (rest : Bytes) :
    mergePartialFields coding layout target (writeFields coding fields source ++ rest) =
      mergePartialFields coding layout (assignFields fields source target) rest := by
  induction fields generalizing target with
  | nil => rfl
  | cons field fields ih =>
      obtain ⟨member, included⟩ := List.cons_subset.mp included
      obtain ⟨whole, wholes⟩ := List.forall_mem_cons.mp whole
      obtain ⟨valid, valids⟩ := List.forall_mem_cons.mp valid
      simp only [sizeFields, List.map_cons, List.sum_cons] at small ih
      rw [writeFields, List.flatMap_cons, List.append_assoc,
        mergePartialFields_write lawful member (by omega) whole valid]
      exact ih included (by omega) wholes valids _

/-- What is written of fields is refused if one of them is invalid. -/
theorem mergePartialFields_writeFields_refuses (included : fields ⊆ layout.fields)
    (small : sizeFields fields source < sizeLimit)
    (whole : ∀ field ∈ fields, field.kind.Whole (field.place.get source))
    (invalid : ¬ ∀ field ∈ fields, field.kind.Valid (field.place.get source)) (target : M)
    (rest : Bytes) :
    mergePartialFields coding layout target (writeFields coding fields source ++ rest) = none := by
  induction fields generalizing target with
  | nil => exact absurd (fun _ member => absurd member List.not_mem_nil) invalid
  | cons field fields ih =>
      obtain ⟨member, included⟩ := List.cons_subset.mp included
      obtain ⟨whole, wholes⟩ := List.forall_mem_cons.mp whole
      simp only [sizeFields, List.map_cons, List.sum_cons] at small ih
      have inside : field.size source < sizeLimit := by omega
      rw [writeFields, List.flatMap_cons, List.append_assoc]
      by_cases valid : field.kind.Valid (field.place.get source)
      · rw [mergePartialFields_write lawful member inside whole valid]
        exact ih included (by omega) wholes
          (fun valids => invalid (List.forall_mem_cons.mpr ⟨valid, valids⟩)) _
      · have refuses := (lawful.each field member).kind.refuses (field.place.get source)
          (field.place.get target) inside whole valid
        rw [(lawful.each field member).write_eq]
        exact mergePartialFields_refuses_reads lawful member refuses rfl _

end Pieces

end Laws

end WireFormat
