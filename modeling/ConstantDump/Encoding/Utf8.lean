import ConstantDump.Text.Basic

/-!
UTF-8. Main statement: a byte sequence has a text exactly when it is the encoding of
that text.
-/

namespace ConstantDump.Utf8

def encode (t : Text) : List UInt8 := t.flatMap String.utf8EncodeChar

/-- The text whose bytes these are, when they are well-formed UTF-8. -/
def decode (bytes : List UInt8) : Option Text :=
  bytes.toByteArray.utf8Decode?.map Array.toList

@[simp] theorem encode_nil : encode [] = [] := rfl

@[simp] theorem encode_append (s t : Text) : encode (s ++ t) = encode s ++ encode t := by
  simp [encode]

theorem decode_encode (t : Text) : decode (encode t) = some t := by
  have h : (encode t).toByteArray = List.utf8Encode t := rfl
  simp [decode, h]

theorem eq_encode_of_decode {bytes : List UInt8} {t : Text} (h : decode bytes = some t) :
    bytes = encode t := by
  obtain ⟨chars, hc, rfl⟩ := Option.map_eq_some_iff.1 h
  have hs : (bytes.toByteArray.utf8Decode?).isSome = true := by simp [hc]
  have he := ByteArray.utf8Encode_get_utf8Decode? (h := hs)
  simp only [hc, Option.get_some] at he
  exact List.toByteArray_inj.1 he.symm

theorem decode_eq_some_iff {bytes : List UInt8} {t : Text} :
    decode bytes = some t ↔ bytes = encode t :=
  ⟨eq_encode_of_decode, fun h => h ▸ decode_encode t⟩

end ConstantDump.Utf8
