import Mathlib.Algebra.Ring.Int.Defs
import Mathlib.Algebra.Ring.Nat
import Mathlib.Data.List.Basic

/-!
# Files of bytes

Integers of 32 bits as four little-endian bytes, and a stream that reads and writes a file, its
position and its failure state.
-/

/-! ## Four bytes -/

namespace FourBytes

variable {value : ℤ}

/-- The integer of 32 bits that is congruent to a given one. -/
def wrap (value : ℤ) : ℤ := (value + 2 ^ 31) % 2 ^ 32 - 2 ^ 31

/-- An integer that fits. -/
def Fits (value : ℤ) : Prop := -2 ^ 31 ≤ value ∧ value < 2 ^ 31

theorem wrap_of_fits (fits : Fits value) : wrap value = value := by
  unfold Fits at fits
  unfold wrap
  omega

theorem fits_natCast {magnitude : ℕ} (small : magnitude < 2 ^ 31) : Fits magnitude := by
  unfold Fits
  omega

theorem wrap_natCast (magnitude : ℕ) (same : value = magnitude) (small : magnitude < 2 ^ 31) :
    wrap value = magnitude := by
  rw [same]
  exact wrap_of_fits (fits_natCast small)

theorem wrap_neg_natCast (magnitude : ℕ) (same : value = -magnitude)
    (small : magnitude < 2 ^ 31) : wrap value = -magnitude := by
  rw [same]
  apply wrap_of_fits
  unfold Fits
  omega

/-- The bytes of an integer, the lowest one first. -/
def encode (value : ℤ) : List UInt8 :=
  (List.range 4).map fun place => UInt8.ofNat (value / 256 ^ place % 256).toNat

/-- The integer with the given bytes. -/
def decode (bytes : List UInt8) : ℤ :=
  wrap (bytes.foldr (fun byte rest => (byte.toNat : ℤ) + 256 * rest) 0)

@[simp] theorem encode_length : (encode value).length = 4 := by
  simp [encode]

theorem decode_encode (fits : Fits value) : decode (encode value) = value := by
  have byte : ∀ part : ℤ, ((UInt8.ofNat (part % 256).toNat).toNat : ℤ) = part % 256 := by
    intro part
    rw [UInt8.toNat_ofNat']
    omega
  have places : encode value =
      [0, 1, 2, 3].map fun place => UInt8.ofNat (value / 256 ^ place % 256).toNat := rfl
  unfold Fits at fits
  simp only [decode, places, List.map_cons, List.map_nil, List.foldr_cons, List.foldr_nil, byte,
    wrap]
  omega

theorem fits_wrap (value : ℤ) : Fits (wrap value) := by
  unfold Fits wrap
  omega

theorem fits_decode (bytes : List UInt8) : Fits (decode bytes) := fits_wrap _

/-- Only the lowest 32 bits of an integer are written. -/
theorem encode_wrap (value : ℤ) : encode (wrap value) = encode value := by
  unfold encode
  apply List.map_congr_left
  intro place range
  have low : place = 0 ∨ place = 1 ∨ place = 2 ∨ place = 3 := by
    have := List.mem_range.mp range
    omega
  have part : wrap value / 256 ^ place % 256 = value / 256 ^ place % 256 := by
    unfold wrap
    rcases low with rfl | rfl | rfl | rfl <;> omega
  rw [part]

theorem decode_encode_wrap (value : ℤ) : decode (encode value) = wrap value := by
  rw [← encode_wrap, decode_encode (fits_wrap value)]

theorem encode_decode {bytes : List UInt8} (size : bytes.length = 4) :
    encode (decode bytes) = bytes := by
  rcases bytes with _ | ⟨first, _ | ⟨second, _ | ⟨third, _ | ⟨fourth, _ | ⟨_, _⟩⟩⟩⟩⟩ <;>
    simp at size
  have byte : ∀ (part : ℤ) (digit : UInt8), part = digit.toNat →
      UInt8.ofNat part.toNat = digit := by
    intro part digit same
    rw [same, Int.toNat_natCast, UInt8.ofNat_toNat]
  have firstSmall := first.toNat_lt
  have secondSmall := second.toNat_lt
  have thirdSmall := third.toNat_lt
  have fourthSmall := fourth.toNat_lt
  rw [decode, encode_wrap]
  simp only [encode, List.range_succ, List.range_zero, List.nil_append, List.cons_append,
    List.map_cons, List.map_nil, List.foldr_cons, List.foldr_nil, List.cons.injEq, and_true]
  refine ⟨byte _ _ ?_, byte _ _ ?_, byte _ _ ?_, byte _ _ ?_⟩ <;> omega

/-- An integer whose missing bytes are all ones is negative. -/
theorem decode_negative {bytes : List UInt8} (short : bytes.length < 4) :
    decode (bytes ++ [255, 255, 255, 255].drop bytes.length) < 0 := by
  rcases bytes with _ | ⟨first, _ | ⟨second, _ | ⟨third, _ | ⟨_, _⟩⟩⟩⟩
  · decide
  · have firstSmall := first.toNat_lt
    simp [decode, wrap]
    omega
  · have firstSmall := first.toNat_lt
    have secondSmall := second.toNat_lt
    simp [decode, wrap]
    omega
  · have firstSmall := first.toNat_lt
    have secondSmall := second.toNat_lt
    have thirdSmall := third.toNat_lt
    simp [decode, wrap]
    omega
  · simp only [List.length_cons] at short
    omega

theorem encode_injective {value other : ℤ} (fits : Fits value) (otherFits : Fits other)
    (same : encode value = encode other) : value = other := by
  rw [← decode_encode fits, same, decode_encode otherFits]

end FourBytes

/-! ## Streams -/

/-- A stream that is open for a file: what the file holds, the common position for reading and
writing, and whether an operation has failed. -/
structure FileStream where
  /-- The bytes of the file. -/
  content : List UInt8
  /-- The position. -/
  pos : ℕ := 0
  /-- The failure state. -/
  failed : Bool := false
  deriving Repr, DecidableEq

namespace FileStream

variable {stream : FileStream} {bytes old rest : List UInt8}

/-- Read a number of bytes; when there are fewer, the stream fails. -/
def read (stream : FileStream) (count : ℕ) : List UInt8 × FileStream :=
  if stream.failed then ([], stream)
  else
    let got := (stream.content.drop stream.pos).take count
    (got, { stream with pos := stream.pos + got.length, failed := got.length < count })

/-- Read into a variable; bytes that are not there leave the variable as it was. -/
def readInto (stream : FileStream) (old : List UInt8) : List UInt8 × FileStream :=
  let (got, after) := stream.read old.length
  (got ++ old.drop got.length, after)

/-- Move to a position, which must not be negative. -/
def seek (stream : FileStream) (target : ℤ) : FileStream :=
  if stream.failed then stream
  else if target < 0 then { stream with failed := true }
  else { stream with pos := target.toNat }

/-- Move by an offset. -/
def seekBy (stream : FileStream) (offset : ℤ) : FileStream := stream.seek (stream.pos + offset)

/-- The position, as the stream reports it. -/
def tell (stream : FileStream) : ℤ := if stream.failed then -1 else stream.pos

/-- Write bytes over what is there; a gap behind the end of the file is filled with zeros. -/
def write (stream : FileStream) (bytes : List UInt8) : FileStream :=
  if stream.failed then stream
  else
    { stream with
      content := stream.content.take stream.pos ++
        List.replicate (stream.pos - stream.content.length) 0 ++ bytes ++
        stream.content.drop (stream.pos + bytes.length)
      pos := stream.pos + bytes.length }

@[simp] theorem read_content (stream : FileStream) (count : ℕ) :
    (stream.read count).2.content = stream.content := by
  unfold read
  split <;> rfl

@[simp] theorem seek_content (stream : FileStream) (target : ℤ) :
    (stream.seek target).content = stream.content := by
  unfold seek
  split
  · rfl
  · split <;> rfl

@[simp] theorem seekBy_content (stream : FileStream) (offset : ℤ) :
    (stream.seekBy offset).content = stream.content :=
  seek_content stream _

/-- Read what stands at the position. -/
theorem readInto_append (front : List UInt8) (position : stream.pos = front.length)
    (content : stream.content = front ++ (bytes ++ rest)) (good : stream.failed = false)
    (size : old.length = bytes.length) :
    stream.readInto old =
      (bytes, { stream with pos := front.length + bytes.length }) := by
  obtain ⟨_, _, _⟩ := stream
  subst position content good
  simp [readInto, read, size, List.drop_eq_nil_of_le (Nat.le_of_eq size)]

/-- Write over what stands at the position. -/
theorem write_append (front rest : List UInt8) (position : stream.pos = front.length)
    (content : stream.content = front ++ rest) (good : stream.failed = false) :
    stream.write bytes =
      { stream with
        content := front ++ (bytes ++ rest.drop bytes.length)
        pos := front.length + bytes.length } := by
  obtain ⟨_, _, _⟩ := stream
  subst position content good
  simp [write]

theorem seek_natCast (good : stream.failed = false) (target : ℕ) :
    stream.seek target = { stream with pos := target } := by
  simp [seek, good]

theorem seek_of_failed (failed : stream.failed = true) (target : ℤ) :
    stream.seek target = stream := by
  simp [seek, failed]

theorem seekBy_of_negative {offset : ℤ} (good : stream.failed = false)
    (negative : stream.pos + offset < 0) :
    stream.seekBy offset = { stream with failed := true } := by
  simp [seekBy, seek, good, negative]

theorem readInto_of_failed (failed : stream.failed = true) (old : List UInt8) :
    stream.readInto old = (old, stream) := by
  simp [readInto, read, failed]

/-- Bytes that agree with those at the position are what is read into a variable that holds them. -/
theorem readInto_of_agrees (agrees : (stream.content.drop stream.pos).take old.length <+: old) :
    (stream.readInto old).1 = old := by
  by_cases failed : stream.failed = true
  · rw [readInto_of_failed failed]
  · obtain ⟨unread, eq⟩ := agrees
    have got : old.drop ((stream.content.drop stream.pos).take old.length).length = unread := by
      nth_rewrite 2 [← eq]
      rw [List.drop_left]
    simp only [readInto, read, failed, Bool.false_eq_true, if_false]
    rw [got, eq]

/-- What is read has the size of the variable. -/
theorem readInto_length : (stream.readInto old).1.length = old.length := by
  by_cases failed : stream.failed = true
  · rw [readInto_of_failed failed]
  · simp only [readInto, read, failed, Bool.false_eq_true, if_false, List.length_append,
      List.length_drop, List.length_take]
    omega

/-- What is read begins with the bytes at the position. -/
theorem prefix_readInto (good : stream.failed = false) :
    (stream.content.drop stream.pos).take old.length <+: (stream.readInto old).1 := by
  simp [readInto, read, good]

/-- A read fails when there are too few bytes. -/
theorem readInto_stream (good : stream.failed = false) :
    (stream.readInto old).2 =
      { stream with
        pos := stream.pos + min old.length (stream.content.length - stream.pos)
        failed := stream.content.length - stream.pos < old.length } := by
  have short : min old.length (stream.content.length - stream.pos) < old.length ↔
      stream.content.length - stream.pos < old.length := by omega
  simp only [readInto, read, good, Bool.false_eq_true, if_false, List.length_take,
    List.length_drop, short]

theorem write_of_failed (failed : stream.failed = true) (bytes : List UInt8) :
    stream.write bytes = stream := by
  simp [write, failed]

/-- Bytes can be written one after the other. -/
theorem write_cons (stream : FileStream) (byte : UInt8) (bytes : List UInt8) :
    stream.write (byte :: bytes) = (stream.write [byte]).write bytes := by
  by_cases failed : stream.failed = true
  · simp [write, failed]
  · have good : stream.failed = false := by simpa using failed
    have size : (stream.content.take stream.pos ++
        List.replicate (stream.pos - stream.content.length) 0).length = stream.pos := by
      simp only [List.length_append, List.length_take, List.length_replicate]
      omega
    generalize front : stream.content.take stream.pos ++
      List.replicate (stream.pos - stream.content.length) 0 = before at size
    have first : stream.write [byte] =
        { stream with
          content := (before ++ [byte]) ++ stream.content.drop (stream.pos + 1)
          pos := stream.pos + 1 } := by
      simp only [write, good, Bool.false_eq_true, if_false, front]
      rfl
    rw [first, @write_append { content := _, pos := _, failed := stream.failed } bytes
      (before ++ [byte]) (stream.content.drop (stream.pos + 1)) (by simp [size]) rfl good]
    simp only [write, good, Bool.false_eq_true, if_false, front, List.length_cons, List.drop_drop,
      List.length_append, List.append_assoc, List.cons_append, List.nil_append, size,
      Nat.add_assoc, Nat.add_comm 1, List.length_nil, Nat.zero_add]

end FileStream
