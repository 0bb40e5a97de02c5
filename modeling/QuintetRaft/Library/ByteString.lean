import Mathlib.Data.List.Basic

/-!
# Strings of bytes

Strings whose elements are bytes, of which texts in UTF-8 are some.
-/

/-- Any bytes, in order. -/
structure ByteString where
  /-- The bytes. -/
  bytes : List UInt8 := []
  deriving DecidableEq, Repr

namespace ByteString

/-- A text in UTF-8. -/
def ofString (text : String) : ByteString := ⟨text.toUTF8.data.toList⟩

instance : Coe String ByteString := ⟨ofString⟩

/-- The bytes are those of a text. -/
def IsUtf8 (string : ByteString) : Prop := ByteArray.IsValidUTF8 ⟨string.bytes.toArray⟩

instance (string : ByteString) : Decidable string.IsUtf8 :=
  inferInstanceAs (Decidable (ByteArray.IsValidUTF8 _))

/-- Texts are not the only strings. -/
example : ¬ (ByteString.mk [0x80]).IsUtf8 ∧ IsUtf8 "localhost" := by decide

/-- The characters that a stream finds in a string: one for each byte, of the same code. -/
def chars (string : ByteString) : List Char := string.bytes.map fun byte => Char.ofNat byte.toNat

/-- The string with given characters, all of them of one byte. -/
def ofChars (chars : List Char) : ByteString := ⟨chars.map fun char => UInt8.ofNat char.toNat⟩

@[simp] theorem ofChars_chars (string : ByteString) : ofChars string.chars = string := by
  have same : ∀ byte : UInt8, UInt8.ofNat (Char.ofNat byte.toNat).toNat = byte := by
    intro byte
    have small : byte.toNat < 256 := byte.toNat_lt
    have valid : byte.toNat.isValidChar := .inl (by omega)
    have code : (Char.ofNat byte.toNat).toNat = byte.toNat := by
      rw [Char.ofNat, dif_pos valid]
      rfl
    rw [code, UInt8.ofNat_toNat]
  rw [ofChars, chars, List.map_map]
  exact congrArg ByteString.mk ((List.map_congr_left fun byte _ => same byte).trans (List.map_id _))

theorem chars_ofChars {text : List Char} (small : ∀ char ∈ text, char.toNat < 256) :
    (ofChars text).chars = text := by
  have same : ∀ char ∈ text, Char.ofNat (UInt8.ofNat char.toNat).toNat = char := fun char member =>
    by rw [UInt8.toNat_ofNat_of_lt' (small char member), Char.ofNat_toNat]
  rw [ofChars, chars, List.map_map]
  exact (List.map_congr_left same).trans (List.map_id _)

@[simp] theorem chars_eq_nil {string : ByteString} : string.chars = [] ↔ string = {} := by
  obtain ⟨bytes⟩ := string
  simp [chars]

end ByteString
