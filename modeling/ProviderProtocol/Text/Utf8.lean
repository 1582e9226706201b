/-!
# Text as bytes

Payloads are lists of bytes.  `encode` writes a text in UTF-8 and `decode?` reads one, refusing bytes that no text
has: `decode?_encode` and `encode_of_decode?` say that the two are inverse.
-/
namespace ProviderProtocol

/-- The contents of a payload. -/
abbrev Bytes := List UInt8

namespace Text.Utf8

def encode (s : String) : Bytes := s.toByteArray.data.toList

def decode? (bytes : Bytes) : Option String := String.fromUTF8? ⟨bytes.toArray⟩

@[simp] theorem decode?_encode (s : String) : decode? (encode s) = some s := by
  simp [decode?, encode, String.fromUTF8?, s.isValidUTF8, String.fromUTF8]

theorem encode_of_decode? {bytes : Bytes} {s : String} (h : decode? bytes = some s) : encode s = bytes := by
  simp only [decode?, String.fromUTF8?] at h
  split at h
  · cases h; simp [encode, String.fromUTF8]
  · cases h

end Text.Utf8

end ProviderProtocol
