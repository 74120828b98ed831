/-!
# Text as bytes

Everything on the wire is a list of bytes; names and messages are strings. The
encoding is UTF-8, and reading it back accepts exactly the byte lists that some
string encodes to.
-/

namespace DuplexRpc

abbrev Bytes := List UInt8

namespace Text

def utf8 (s : String) : Bytes := s.toByteArray.data.toList

def ofUtf8? (bytes : Bytes) : Option String := String.fromUTF8? ⟨bytes.toArray⟩

theorem ofUtf8?_eq_some_iff {bytes : Bytes} {s : String} :
    ofUtf8? bytes = some s ↔ bytes = utf8 s := by
  constructor
  · intro h
    simp only [ofUtf8?, String.fromUTF8?] at h
    split at h
    next valid =>
      obtain rfl := Option.some.inj h
      simp [utf8, String.fromUTF8]
    next => cases h
  · rintro rfl
    simp [ofUtf8?, utf8, String.fromUTF8?, String.fromUTF8, s.isValidUTF8]

@[simp] theorem ofUtf8?_utf8 (s : String) : ofUtf8? (utf8 s) = some s :=
  ofUtf8?_eq_some_iff.mpr rfl

theorem utf8_injective {s t : String} (h : utf8 s = utf8 t) : s = t := by
  have := ofUtf8?_utf8 t
  rw [← h, ofUtf8?_utf8] at this
  exact Option.some.inj this

@[simp] theorem utf8_append (s t : String) : utf8 (s ++ t) = utf8 s ++ utf8 t := by
  simp [utf8, String.toByteArray_append]

end Text

end DuplexRpc
