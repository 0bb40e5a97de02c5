import Mathlib.Algebra.Ring.Nat
import QuintetRaft.Library.ByteString
import QuintetRaft.Library.WireFormat

/-!
# Scalars on the wire

The scalars that fields hold, strings among them, and numbers in groups of seven bits, which are
one lawful way to code them.
-/

namespace WireFormat

/-! ## Strings -/

/-- Read so many bytes. -/
def takeBytes (length : ℕ) (bytes : Bytes) : Option (Bytes × Bytes) :=
  if length ≤ bytes.length then some (bytes.take length, bytes.drop length) else none

theorem takeBytes_append (front rest : Bytes) :
    takeBytes front.length (front ++ rest) = some (front, rest) := by
  simp [takeBytes]

theorem takeBytes_shrinks {length : ℕ} {bytes front rest : Bytes}
    (taken : takeBytes length bytes = some (front, rest)) : rest.length ≤ bytes.length := by
  unfold takeBytes at taken
  split_ifs at taken
  obtain ⟨-, rfl⟩ := Prod.mk.inj (Option.some.inj taken)
  simp

/-- Strings have their length in front; what is not text is written, and refused. -/
def string (coding : Coding) : Scalar ByteString where
  write text := coding.length.write text.bytes.length ++ text.bytes
  size text := coding.length.size text.bytes.length + text.bytes.length
  read bytes := do
    let (length, bytes) ← coding.length.read bytes
    let (front, rest) ← takeBytes length bytes
    if ByteString.IsUtf8 ⟨front⟩ then some (⟨front⟩, rest) else none
  Valid := ByteString.IsUtf8

/-- A string is found behind its length. -/
theorem string_read_write {coding : Coding} (lawful : coding.Lawful) {text : ByteString}
    (rest : Bytes) (small : (string coding).size text < sizeLimit) :
    (string coding).read ((string coding).write text ++ rest) =
      if text.IsUtf8 then some (text, rest) else none := by
  simp only [string] at small ⊢
  rw [List.append_assoc, lawful.readLength_write _ _ (by omega)]
  simp only [Option.bind_eq_bind, Option.bind_some, takeBytes_append]

theorem string_read_eq_some {coding : Coding} {bytes rest : Bytes} {text : ByteString} :
    (string coding).read bytes = some (text, rest) ↔
      ∃ length behind, coding.length.read bytes = some (length, behind) ∧
        takeBytes length behind = some (text.bytes, rest) ∧ text.IsUtf8 := by
  constructor
  · intro read
    obtain ⟨⟨length, behind⟩, lengthRead, read⟩ := Option.bind_eq_some_iff.mp read
    obtain ⟨⟨front, rest⟩, taken, read⟩ := Option.bind_eq_some_iff.mp read
    dsimp only at read
    split_ifs at read with valid
    cases read
    exact ⟨length, behind, lengthRead, taken, valid⟩
  · rintro ⟨length, behind, lengthRead, taken, valid⟩
    simp only [string, lengthRead, taken, Option.bind_eq_bind, Option.bind_some, if_pos valid]

theorem string_lawful {coding : Coding} (lawful : coding.Lawful) : (string coding).Lawful where
  length_write text := by
    simp only [string, List.length_append, lawful.length_writeLength]
  read_write text rest small valid := by
    rw [string_read_write lawful rest small]
    exact if_pos valid
  refuses text rest small invalid := by
    rw [string_read_write lawful rest small]
    exact if_neg invalid
  read_valid read := by
    obtain ⟨_, _, -, -, valid⟩ := string_read_eq_some.mp read
    exact valid
  read_shrinks read := by
    obtain ⟨_, _, lengthRead, taken, -⟩ := string_read_eq_some.mp read
    exact Nat.le_trans (takeBytes_shrinks taken) (lawful.readLength_shrinks lengthRead)

/-! ## The scalars of a runtime -/

/-- The coding of everything that fields are made of. -/
structure Runtime where
  coding : Coding
  uint64 : Scalar UInt64
  uint32 : Scalar UInt32
  bool : Scalar Bool

namespace Runtime

/-- Strings on the wire. -/
def string (runtime : Runtime) : Scalar ByteString := WireFormat.string runtime.coding

/-- All of them are read back; numbers and truth values are never refused. -/
structure Lawful (runtime : Runtime) : Prop where
  coding : runtime.coding.Lawful
  uint64 : runtime.uint64.Lawful
  uint32 : runtime.uint32.Lawful
  bool : runtime.bool.Lawful
  valid_uint64 : ∀ value, runtime.uint64.Valid value
  valid_uint32 : ∀ value, runtime.uint32.Valid value
  valid_bool : ∀ value, runtime.bool.Valid value
  size_bool : ∀ value, runtime.bool.size value = 1

theorem Lawful.string {runtime : Runtime} (lawful : runtime.Lawful) : runtime.string.Lawful :=
  string_lawful lawful.coding

end Runtime

/-! ## Groups of seven bits -/

namespace Varint

/-- The groups of a number, the lowest one first, at most so many. -/
def encode : ℕ → ℕ → Bytes
  | 0, _ => []
  | groups + 1, value =>
      if value < 128 then [UInt8.ofNat value]
      else UInt8.ofNat (value % 128 + 128) :: encode groups (value / 128)

/-- The number with the given groups, at most so many. -/
def decode : ℕ → Bytes → Option (ℕ × Bytes)
  | 0, _ => none
  | _ + 1, [] => none
  | groups + 1, byte :: rest =>
      if byte.toNat < 128 then some (byte.toNat, rest)
      else (decode groups rest).map fun (high, rest) => (byte.toNat - 128 + 128 * high, rest)

theorem decode_encode {groups value : ℕ} (small : value < 128 ^ groups) (positive : 0 < groups)
    (rest : Bytes) : decode groups (encode groups value ++ rest) = some (value, rest) := by
  induction groups generalizing value with
  | zero => omega
  | succ groups ih =>
      unfold encode
      split_ifs with last
      · have byte : (UInt8.ofNat value).toNat = value :=
          UInt8.toNat_ofNat_of_lt' (Nat.lt_trans last (by decide))
        simp [decode, byte, last]
      · have byte : (UInt8.ofNat (value % 128 + 128)).toNat = value % 128 + 128 :=
          UInt8.toNat_ofNat_of_lt' (by unfold UInt8.size; omega)
        have high : value / 128 < 128 ^ groups := by
          rw [Nat.div_lt_iff_lt_mul (by omega)]
          rwa [pow_succ] at small
        have more : 0 < groups := by
          rcases Nat.eq_zero_or_pos groups with rfl | more
          · omega
          · exact more
        rw [List.cons_append, decode, byte, if_neg (by omega), ih high more]
        simp only [Option.map_some, Option.some.injEq, Prod.mk.injEq, and_true]
        omega

theorem decode_shrinks {groups value : ℕ} {bytes rest : Bytes}
    (read : decode groups bytes = some (value, rest)) : rest.length < bytes.length := by
  induction groups generalizing bytes value with
  | zero => cases read
  | succ groups ih =>
      cases bytes with
      | nil => cases read
      | cons byte bytes =>
          rw [decode] at read
          split_ifs at read
          · obtain ⟨-, rfl⟩ := Prod.mk.inj (Option.some.inj read)
            exact Nat.lt_succ_self _
          · obtain ⟨⟨high, behind⟩, readHigh, same⟩ := Option.map_eq_some_iff.mp read
            cases same
            exact Nat.lt_succ_of_lt (ih readHigh)

theorem decode_lt {groups value : ℕ} {bytes rest : Bytes}
    (read : decode groups bytes = some (value, rest)) : value < 128 ^ groups := by
  induction groups generalizing bytes value with
  | zero => cases read
  | succ groups ih =>
      cases bytes with
      | nil => cases read
      | cons byte bytes =>
          rw [decode] at read
          have byte_lt : byte.toNat < 256 := byte.toNat_lt
          have positive : 0 < 128 ^ groups := Nat.pow_pos (by decide)
          rw [pow_succ]
          split_ifs at read with last
          · obtain ⟨rfl, -⟩ := Prod.mk.inj (Option.some.inj read)
            omega
          · obtain ⟨⟨high, behind⟩, readHigh, same⟩ := Option.map_eq_some_iff.mp read
            cases same
            have high_lt := ih readHigh
            omega

/-- Numbers of up to 64 bits have ten groups. -/
def maxGroups : ℕ := 10

/-- A type of numbers. -/
def scalar {α : Type} (toNat : α → ℕ) (ofNat : ℕ → α) : Scalar α where
  write value := encode maxGroups (toNat value)
  size value := (encode maxGroups (toNat value)).length
  read bytes := (decode maxGroups bytes).map fun (number, rest) => (ofNat number, rest)

theorem scalar_read_write {α : Type} {toNat : α → ℕ} {ofNat : ℕ → α} {value : α}
    (inverse : ofNat (toNat value) = value) (small : toNat value < 128 ^ maxGroups)
    (rest : Bytes) :
    (scalar toNat ofNat).read ((scalar toNat ofNat).write value ++ rest) = some (value, rest) := by
  have decoded := decode_encode small (by decide) rest
  exact Option.map_eq_some_iff.mpr ⟨_, decoded, congrArg (·, rest) inverse⟩

theorem scalar_read_shrinks {α : Type} {toNat : α → ℕ} {ofNat : ℕ → α} {bytes rest : Bytes}
    {value : α} (read : (scalar toNat ofNat).read bytes = some (value, rest)) :
    rest.length < bytes.length := by
  obtain ⟨⟨number, behind⟩, decoded, same⟩ := Option.map_eq_some_iff.mp read
  cases same
  exact decode_shrinks decoded

theorem scalar_lawful {α : Type} {toNat : α → ℕ} {ofNat : ℕ → α}
    (inverse : ∀ value, ofNat (toNat value) = value)
    (small : ∀ value, toNat value < 128 ^ maxGroups) : (scalar toNat ofNat).Lawful where
  length_write _ := rfl
  read_write value rest _ _ := scalar_read_write (inverse value) (small value) rest
  refuses _ _ _ invalid := absurd trivial invalid
  read_valid _ := trivial
  read_shrinks read := Nat.le_of_lt (scalar_read_shrinks read)

/-- Skip a payload that is a number of 64 bits, has eight bytes, has its length in front, or has
four bytes, as the tag says.  Numbers are kept in as few groups as they need. -/
def skipField (tag : ℕ) (bytes : Bytes) : Option (Bytes × Bytes) :=
  match tag % 8 with
  | 0 =>
      (decode maxGroups bytes).map fun (number, rest) =>
        (encode maxGroups (number % 2 ^ 64), rest)
  | 1 => takeBytes 8 bytes
  | 2 => do
      let (length, bytes) ← decode maxGroups bytes
      let (front, rest) ← takeBytes length bytes
      some (encode maxGroups length ++ front, rest)
  | 5 => takeBytes 4 bytes
  | _ => none

theorem takeBytes_taken {length : ℕ} {bytes front rest : Bytes}
    (taken : takeBytes length bytes = some (front, rest)) (rest' : Bytes) :
    takeBytes length (front ++ rest') = some (front, rest') := by
  unfold takeBytes at taken
  split_ifs at taken with enough
  obtain ⟨rfl, -⟩ := Prod.mk.inj (Option.some.inj taken)
  simp [takeBytes, enough]

/-- What is kept of a field is skipped as it is. -/
theorem skipField_kept {tag : ℕ} {bytes kept rest : Bytes}
    (skipped : skipField tag bytes = some (kept, rest)) (rest' : Bytes) :
    skipField tag (kept ++ rest') = some (kept, rest') := by
  unfold skipField at skipped ⊢
  split at skipped
  · obtain ⟨⟨number, left⟩, -, same⟩ := Option.map_eq_some_iff.mp skipped
    cases same
    have wide : number % 2 ^ 64 < 128 ^ maxGroups :=
      Nat.lt_trans (Nat.mod_lt _ (by decide)) (by decide)
    simp only [decode_encode wide (by decide), Option.map_some, Nat.mod_mod]
  · exact takeBytes_taken skipped rest'
  · obtain ⟨⟨length, behind⟩, decoded, skipped⟩ := Option.bind_eq_some_iff.mp skipped
    obtain ⟨⟨front, left⟩, taken, same⟩ := Option.bind_eq_some_iff.mp skipped
    cases same
    simp only [List.append_assoc, decode_encode (decode_lt decoded) (by decide),
      Option.bind_eq_bind, Option.bind_some, takeBytes_taken taken]
  · exact takeBytes_taken skipped rest'
  · cases skipped

theorem skipField_shrinks {tag : ℕ} {bytes kept rest : Bytes}
    (skipped : skipField tag bytes = some (kept, rest)) : rest.length ≤ bytes.length := by
  unfold skipField at skipped
  split at skipped
  · obtain ⟨⟨number, left⟩, decoded, same⟩ := Option.map_eq_some_iff.mp skipped
    cases same
    exact Nat.le_of_lt (decode_shrinks decoded)
  · exact takeBytes_shrinks skipped
  · obtain ⟨⟨length, behind⟩, decoded, skipped⟩ := Option.bind_eq_some_iff.mp skipped
    obtain ⟨⟨front, left⟩, taken, same⟩ := Option.bind_eq_some_iff.mp skipped
    cases same
    exact Nat.le_trans (takeBytes_shrinks taken) (Nat.le_of_lt (decode_shrinks decoded))
  · exact takeBytes_shrinks skipped
  · cases skipped

/-- Tags of 32 bits and lengths in groups of seven bits.  Unknown fields are written. -/
def coding : Coding where
  writeTag tag := encode maxGroups tag
  sizeTag tag := (encode maxGroups tag).length
  readTag bytes :=
    ((decode maxGroups bytes).map fun (tag, rest) => (tag % 2 ^ 32, rest)).filter
      fun (tag, _) => tag != 0
  length := scalar id id
  limit := takeBytes
  skipField := skipField
  preservesUnknowns := true

theorem readTag_eq_some {bytes rest : Bytes} {tag : ℕ} :
    coding.readTag bytes = some (tag, rest) ↔
      0 < tag ∧ ∃ number, decode maxGroups bytes = some (number, rest) ∧ number % 2 ^ 32 = tag := by
  simp only [coding, Option.filter_eq_some_iff, Option.map_eq_some_iff, Prod.exists, Prod.mk.injEq,
    bne_iff_ne, ne_eq, Nat.pos_iff_ne_zero]
  constructor
  · rintro ⟨⟨number, _, decoded, same, rfl⟩, positive⟩
    exact ⟨positive, number, decoded, same⟩
  · rintro ⟨positive, number, decoded, same⟩
    exact ⟨⟨number, rest, decoded, same, rfl⟩, positive⟩

theorem coding_lawful : coding.Lawful where
  length_writeTag _ := rfl
  sizeTag_small tag _ small := by simp [coding, maxGroups, encode, small]
  readTag_nil := rfl
  readTag_write tag rest positive small := by
    have wide : tag < 128 ^ maxGroups := Nat.lt_trans small (by decide)
    exact readTag_eq_some.mpr
      ⟨positive, tag, decode_encode wide (by decide) rest, Nat.mod_eq_of_lt small⟩
  readTag_bounds read := by
    obtain ⟨positive, number, -, rfl⟩ := readTag_eq_some.mp read
    exact ⟨positive, Nat.mod_lt _ (by decide)⟩
  readTag_shrinks read := by
    obtain ⟨-, _, decoded, -⟩ := readTag_eq_some.mp read
    exact decode_shrinks decoded
  length_writeLength _ := rfl
  readLength_write length rest small :=
    scalar_read_write rfl (Nat.lt_trans small (by decide)) rest
  readLength_shrinks read := Nat.le_of_lt (scalar_read_shrinks read)
  limit_append := takeBytes_append
  limit_shrinks := takeBytes_shrinks
  skipField_kept := skipField_kept
  skipField_shrinks := skipField_shrinks

/-- All scalars in groups of seven bits. -/
def runtime : Runtime where
  coding := coding
  uint64 := scalar UInt64.toNat UInt64.ofNat
  uint32 := scalar UInt32.toNat UInt32.ofNat
  bool := scalar Bool.toNat fun number => number != 0

theorem runtime_lawful : runtime.Lawful where
  coding := coding_lawful
  uint64 := scalar_lawful (fun _ => UInt64.ofNat_toNat)
    fun value => Nat.lt_trans value.toNat_lt (by decide)
  uint32 := scalar_lawful (fun _ => UInt32.ofNat_toNat)
    fun value => Nat.lt_trans value.toNat_lt (by decide)
  bool := show (scalar Bool.toNat fun number => number != 0).Lawful from
    scalar_lawful (fun value => by cases value <;> rfl)
      fun value => Nat.lt_of_lt_of_le (Bool.toNat_lt value) (by decide)
  valid_uint64 _ := trivial
  valid_uint32 _ := trivial
  valid_bool _ := trivial
  size_bool value := by cases value <;> rfl

end Varint

end WireFormat
