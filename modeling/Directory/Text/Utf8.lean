import Directory.Text.Basic

namespace Directory.Text

/-! # UTF-8

Texts as octets.  The main statements say that encoding and decoding are inverse to
each other. -/

/-- The octets of a text. -/
def encodeUtf8 (text : Text) : List UInt8 := text.flatMap String.utf8EncodeChar

/-- The text that the octets encode, if they are UTF-8. -/
def decodeUtf8 (octets : List UInt8) : Option Text :=
  if octets.isEmpty then some []
  else (ByteArray.mk octets.toArray).utf8Decode?.map Array.toList

/-- The number of octets of a text. -/
def utf8Length (text : Text) : Nat := (encodeUtf8 text).length

@[simp] theorem decodeUtf8_nil : decodeUtf8 [] = some [] := rfl

theorem encodeUtf8_append (left right : Text) :
    encodeUtf8 (left ++ right) = encodeUtf8 left ++ encodeUtf8 right := by
  simp [encodeUtf8]

private theorem mk_encodeUtf8 (text : Text) :
    ByteArray.mk (encodeUtf8 text).toArray = text.utf8Encode := by
  apply ByteArray.ext
  apply Array.ext'
  simp [List.utf8Encode, encodeUtf8]

private theorem decodeUtf8_eq (octets : List UInt8) :
    decodeUtf8 octets = (ByteArray.mk octets.toArray).utf8Decode?.map Array.toList := by
  cases octets with
  | nil => exact congrArg (Option.map Array.toList) ByteArray.utf8Decode?_empty.symm
  | cons octet rest => rfl

theorem decodeUtf8_encodeUtf8 (text : Text) : decodeUtf8 (encodeUtf8 text) = some text := by
  simp [decodeUtf8_eq, mk_encodeUtf8]

end Directory.Text
