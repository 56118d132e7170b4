/-
Module: FameZ.Lib.Utf8
Purpose: The text that a byte string decodes to, if it is UTF-8.
Trusted boundary: none
Main exports: Utf8.encode, decode, decode_encode, decode_eq_some_iff
-/
import Mathlib.Data.List.Basic

namespace Utf8

/-- `text.encode()`. -/
def encode (text : List Char) : List UInt8 :=
  text.flatMap String.utf8EncodeChar

/-- `bytes.decode()`; `none` is a UnicodeDecodeError. -/
def decode (bytes : List UInt8) : Option (List Char) :=
  bytes.toByteArray.utf8Decode?.map Array.toList

theorem utf8Encode_eq (text : List Char) :
    text.utf8Encode = (encode text).toByteArray := rfl

@[simp] theorem decode_encode (text : List Char) :
    decode (encode text) = some text := by
  rw [decode, ← utf8Encode_eq, List.utf8Decode?_utf8Encode]
  rfl

/-- Exactly the encoded texts decode. -/
theorem decode_eq_some_iff {bytes : List UInt8} {text : List Char} :
    decode bytes = some text ↔ encode text = bytes := by
  constructor
  · intro decoded
    obtain ⟨chars, found, rfl⟩ := Option.map_eq_some_iff.mp decoded
    have whole := ByteArray.utf8Encode_get_utf8Decode?
      (b := bytes.toByteArray) (h := by rw [found]; rfl)
    simp only [found, Option.get_some, utf8Encode_eq] at whole
    exact List.toByteArray_inj.mp whole
  · rintro rfl
    exact decode_encode text

theorem encode_append (first second : List Char) :
    encode (first ++ second) = encode first ++ encode second :=
  List.flatMap_append

end Utf8
