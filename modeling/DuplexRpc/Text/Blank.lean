/-!
# Blank characters

A character is blank when it has the Unicode property White_Space. The property
covers spaces of every width, the line and paragraph separators and the ASCII
controls from tab to carriage return. It leaves out the zero width characters and
the ASCII separators below U+0020.
-/

namespace DuplexRpc.Text

/-- The 25 code points of White_Space, as ranges. -/
def blankRanges : List (Nat × Nat) :=
  [(0x09, 0x0D), (0x20, 0x20), (0x85, 0x85), (0xA0, 0xA0), (0x1680, 0x1680), (0x2000, 0x200A),
   (0x2028, 0x2029), (0x202F, 0x202F), (0x205F, 0x205F), (0x3000, 0x3000)]

def isBlank (c : Char) : Bool := blankRanges.any fun (lo, hi) => lo ≤ c.toNat && c.toNat ≤ hi

def trimStart (s : List Char) : List Char := s.dropWhile isBlank

def trimEnd (s : List Char) : List Char := (s.reverse.dropWhile isBlank).reverse

def trim (s : List Char) : List Char := trimEnd (trimStart s)

example : (blankRanges.map fun (lo, hi) => hi - lo + 1).sum = 25 := rfl

@[simp] theorem trimEnd_nil : trimEnd [] = [] := rfl

/-- Blank characters appended to a text disappear when its end is trimmed. -/
theorem trimEnd_append_of_blank {s t : List Char} (h : ∀ c ∈ t, isBlank c) :
    trimEnd (s ++ t) = trimEnd s := by
  rw [trimEnd, List.reverse_append, List.dropWhile_append_of_pos fun c m => h c (by simpa using m),
    trimEnd]

end DuplexRpc.Text
