import DuplexRpc.Json.Token

/-!
# Texts of JSON strings

What the parts of a JSON string spell. Hexadecimal escapes are UTF-16 units: a high
surrogate must be followed by a low one, and the two make one character. Bytes stand
for themselves, and in the end all of them must be UTF-8.

A text has one preferred spelling, in which only the quote, the backslash and the
control characters are escaped.
-/

namespace DuplexRpc.Json.StringText

/-- Whether a unit is the first half of a surrogate pair. -/
def isHigh (unit : UInt16) : Bool := 0xD800 ≤ unit && unit ≤ 0xDBFF

/-- Whether a unit is the second half of a surrogate pair. -/
def isLow (unit : UInt16) : Bool := 0xDC00 ≤ unit && unit ≤ 0xDFFF

def paired (high low : UInt16) : Char :=
  Char.ofNat (0x10000 + (high.toNat - 0xD800) * 0x400 + (low.toNat - 0xDC00))

/-- The bytes that the parts spell, after those spelled already, the latest first. -/
def bytes? (done : Bytes) : List StringPart → Option Bytes
  | [] => some done.reverse
  | .byte value :: rest => bytes? (value :: done) rest
  | .unit unit :: rest =>
    if isHigh unit then
      match rest with
      | .unit low :: rest =>
        if isLow low then bytes? ((String.utf8EncodeChar (paired unit low)).reverse ++ done) rest
        else none
      | _ => none
    else if isLow unit then none
    else bytes? ((String.utf8EncodeChar (Char.ofNat unit.toNat)).reverse ++ done) rest

def decode? (parts : List StringPart) : Option String := (bytes? [] parts).bind Text.ofUtf8?

/-- The preferred spelling of a byte: a control byte without a letter escape becomes a unit. -/
def encodeByte (value : UInt8) : StringPart :=
  if value < 32 && (escapeOf? value).isNone then .unit value.toUInt16 else .byte value

def encode (s : String) : List StringPart := (Text.utf8 s).map encodeByte

end DuplexRpc.Json.StringText
