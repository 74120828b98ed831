import DuplexRpc.Json.Number
import DuplexRpc.Json.Token

/-!
# The language of JSON texts

What a JSON text is and what it says, told by the productions of its grammar and without a
reader. A document keeps what a text says: strings are the characters that they spell, numbers
stay as they are written, and members stand in the order of the text, repeated names included.

Strings are UTF-8, and a hexadecimal escape of a surrogate occurs only as one half of a pair.
-/

namespace DuplexRpc.Json

inductive Document
  | null
  | bool (value : Bool)
  | number (value : Numeral)
  | string (value : String)
  | array (items : List Document)
  | object (members : List (String × Document))

namespace Productions

def Ws (s : Bytes) : Prop := ∀ b ∈ s, isSpace b

/-! ### Numbers -/

/-- At least one digit. -/
def Digits (s : Bytes) : Prop := s ≠ [] ∧ ∀ b ∈ s, isDigit b

/-- The digits before the point: a zero, or digits that do not begin with a zero. -/
inductive SpellsWhole : Bytes → Prop
  | zero : SpellsWhole ['0'.toUInt8]
  | digits {first : UInt8} {rest : Bytes} (h : Digits (first :: rest))
      (other : first ≠ '0'.toUInt8) : SpellsWhole (first :: rest)

/-- A point with digits behind it, or nothing. -/
inductive SpellsFraction : Bytes → Option Bytes → Prop
  | none : SpellsFraction [] none
  | some {digits : Bytes} (h : Digits digits) :
      SpellsFraction ('.'.toUInt8 :: digits) (some digits)

/-- The sign of an exponent, which is negative behind a minus alone. -/
inductive SpellsSign : Bytes → Bool → Prop
  | none : SpellsSign [] false
  | plus : SpellsSign ['+'.toUInt8] false
  | minus : SpellsSign ['-'.toUInt8] true

/-- An exponent, introduced by a letter of either case, or nothing. -/
inductive SpellsExponent : Bytes → Option Exponent → Prop
  | none : SpellsExponent [] none
  | some {mark : UInt8} {sign digits : Bytes} {negative : Bool}
      (letter : mark = 'e'.toUInt8 ∨ mark = 'E'.toUInt8) (signed : SpellsSign sign negative)
      (h : Digits digits) : SpellsExponent (mark :: sign ++ digits) (some ⟨negative, digits⟩)

/-- A number. Only a minus may stand before it. -/
inductive SpellsNumber : Bytes → Numeral → Prop
  | intro {whole fraction exponent : Bytes} {fraction? : Option Bytes} {exponent? : Option Exponent}
      (negative : Bool) (hw : SpellsWhole whole) (hf : SpellsFraction fraction fraction?)
      (he : SpellsExponent exponent exponent?) :
      SpellsNumber ((if negative then ['-'.toUInt8] else []) ++ whole ++ fraction ++ exponent)
        ⟨negative, whole, fraction?, exponent?⟩

/-! ### Strings -/

def SpellsHexDigit (b : UInt8) (value : Nat) : Prop :=
  value < 10 ∧ b.toNat = '0'.toNat + value ∨
    10 ≤ value ∧ value < 16 ∧
      (b.toNat = 'a'.toNat + (value - 10) ∨ b.toNat = 'A'.toNat + (value - 10))

/-- The escape of a 16-bit unit by its four hexadecimal digits. -/
inductive SpellsUnit : Bytes → Nat → Prop
  | intro {a b c d : UInt8} {w x y z : Nat} (ha : SpellsHexDigit a w) (hb : SpellsHexDigit b x)
      (hc : SpellsHexDigit c y) (hd : SpellsHexDigit d z) :
      SpellsUnit ['\\'.toUInt8, 'u'.toUInt8, a, b, c, d] (((w * 16 + x) * 16 + y) * 16 + z)

/-- The letters behind a backslash, each with the character that it stands for. -/
def letters : List (Char × Char) :=
  [('"', '"'), ('\\', '\\'), ('/', '/'), ('b', '\x08'), ('f', '\x0c'), ('n', '\n'), ('r', '\r'),
    ('t', '\t')]

inductive SpellsChar : Bytes → Char → Prop
  /-- It stands for itself, unless it is a quote, a backslash or a control character. -/
  | plain {c : Char} (visible : ' '.toNat ≤ c.toNat) (quote : c ≠ '"') (backslash : c ≠ '\\') :
      SpellsChar (String.utf8EncodeChar c) c
  | letter {letter c : Char} (h : (letter, c) ∈ letters) :
      SpellsChar ['\\'.toUInt8, letter.toUInt8] c
  | unit {s : Bytes} {n : Nat} (h : SpellsUnit s n) (single : ¬ (0xD800 ≤ n ∧ n ≤ 0xDFFF)) :
      SpellsChar s (Char.ofNat n)
  | pair {s t : Bytes} {high low : Nat} (hs : SpellsUnit s high) (ht : SpellsUnit t low)
      (first : 0xD800 ≤ high ∧ high ≤ 0xDBFF) (second : 0xDC00 ≤ low ∧ low ≤ 0xDFFF) :
      SpellsChar (s ++ t) (Char.ofNat (0x10000 + (high - 0xD800) * 0x400 + (low - 0xDC00)))

inductive SpellsChars : Bytes → List Char → Prop
  | nil : SpellsChars [] []
  | cons {s rest : Bytes} {c : Char} {cs : List Char} (h : SpellsChar s c)
      (hr : SpellsChars rest cs) : SpellsChars (s ++ rest) (c :: cs)

inductive SpellsString : Bytes → String → Prop
  | intro {s : Bytes} {cs : List Char} (h : SpellsChars s cs) :
      SpellsString ('"'.toUInt8 :: s ++ ['"'.toUInt8]) (String.ofList cs)

/-! ### Values -/

mutual

/-- A value without white space around it. -/
inductive SpellsValue : Bytes → Document → Prop
  | null : SpellsValue (ascii "null") .null
  | true : SpellsValue (ascii "true") (.bool Bool.true)
  | false : SpellsValue (ascii "false") (.bool Bool.false)
  | number {s : Bytes} {n : Numeral} (h : SpellsNumber s n) : SpellsValue s (.number n)
  | string {s : Bytes} {text : String} (h : SpellsString s text) : SpellsValue s (.string text)
  | array {s : Bytes} {items : List Document} (h : SpellsItems s items) :
      SpellsValue ('['.toUInt8 :: s ++ [']'.toUInt8]) (.array items)
  | object {s : Bytes} {members : List (String × Document)} (h : SpellsMembers s members) :
      SpellsValue ('{'.toUInt8 :: s ++ ['}'.toUInt8]) (.object members)

/-- A value with white space around it, as it is in a whole text. -/
inductive SpellsText : Bytes → Document → Prop
  | intro {before s after : Bytes} {d : Document} (hb : Ws before) (h : SpellsValue s d)
      (ha : Ws after) : SpellsText (before ++ s ++ after) d

/-- What stands between the brackets of an array. -/
inductive SpellsItems : Bytes → List Document → Prop
  | none {gap : Bytes} (h : Ws gap) : SpellsItems gap []
  | last {s : Bytes} {d : Document} (h : SpellsText s d) : SpellsItems s [d]
  | more {s rest : Bytes} {d next : Document} {later : List Document} (h : SpellsText s d)
      (hr : SpellsItems rest (next :: later)) :
      SpellsItems (s ++ ','.toUInt8 :: rest) (d :: next :: later)

/-- A name, a colon and a value. -/
inductive SpellsMember : Bytes → String × Document → Prop
  | intro {before s after value : Bytes} {name : String} {d : Document} (hb : Ws before)
      (hn : SpellsString s name) (ha : Ws after) (h : SpellsText value d) :
      SpellsMember (before ++ s ++ after ++ ':'.toUInt8 :: value) (name, d)

/-- What stands between the braces of an object. -/
inductive SpellsMembers : Bytes → List (String × Document) → Prop
  | none {gap : Bytes} (h : Ws gap) : SpellsMembers gap []
  | last {s : Bytes} {member : String × Document} (h : SpellsMember s member) :
      SpellsMembers s [member]
  | more {s rest : Bytes} {member next : String × Document} {later : List (String × Document)}
      (h : SpellsMember s member) (hr : SpellsMembers rest (next :: later)) :
      SpellsMembers (s ++ ','.toUInt8 :: rest) (member :: next :: later)

end

end Productions

end DuplexRpc.Json
