import DuplexRpc.Text.Utf8

/-!
# Encoded characters

A text is encoded character by character, and no byte of a character outside ASCII is an ASCII
byte. So what is looked for among the bytes of a text, if it is ASCII, is found where the text
has that character and nowhere else.
-/

namespace DuplexRpc.Text

theorem utf8_ofList (s : List Char) : utf8 (String.ofList s) = s.flatMap String.utf8EncodeChar := by
  simp [utf8, String.toByteArray_ofList, List.utf8Encode]

/-- The byte of an ASCII character occurs in the encoding of no other character. -/
theorem eq_of_mem_utf8EncodeChar {c d : Char} (ascii : d.toNat < 128)
    (h : UInt8.ofNat d.toNat ∈ String.utf8EncodeChar c) : c = d := by
  have unequal : ∀ n, 128 ≤ n → n < 256 → UInt8.ofNat d.toNat ≠ UInt8.ofNat n := by
    intro n low high same
    have codes := congrArg UInt8.toNat same
    simp only [UInt8.toNat_ofNat'] at codes
    omega
  simp only [String.utf8EncodeChar] at h
  split at h
  next single =>
    have codes := congrArg UInt8.toNat (List.mem_singleton.mp h)
    simp only [UInt8.toNat_ofNat'] at codes
    have same : c.toNat = d.toNat := by
      rw [show c.toNat = c.val.toNat from rfl]
      omega
    exact Char.toNat_inj.mp same
  next =>
    -- every byte of a longer encoding has its highest bit set
    exfalso
    split at h
    next =>
      simp only [List.mem_cons, List.not_mem_nil, or_false] at h
      rcases h with h | h <;> exact unequal _ (by omega) (by omega) h
    next =>
      split at h <;> simp only [List.mem_cons, List.not_mem_nil, or_false] at h
      · rcases h with h | h | h <;> exact unequal _ (by omega) (by omega) h
      · rcases h with h | h | h | h <;> exact unequal _ (by omega) (by omega) h

end DuplexRpc.Text
