import DuplexRpc.Text.Utf8

/-!
# JSON tokens

A JSON text is a row of tokens with white space between them. Strings and numbers are
taken apart here as far as their spelling goes: escapes are told from plain bytes and
the digits of a number from its sign, point and exponent. What they mean is decided
later, so a text can be well formed although a value in it cannot be represented.
-/

namespace DuplexRpc.Json

/-- A part of a string: a byte that stands for itself or was written as a letter escape, or the
16-bit unit of a hexadecimal escape. -/
inductive StringPart
  | byte (value : UInt8)
  | unit (value : UInt16)
  deriving DecidableEq, Repr

structure Exponent where
  negative : Bool
  digits : Bytes
  deriving DecidableEq, Repr

/-- A number as it is spelled, its digits being ASCII. -/
structure Numeral where
  negative : Bool
  whole : Bytes
  fraction : Option Bytes
  exponent : Option Exponent
  deriving DecidableEq, Repr

inductive Token
  | beginArray | endArray | beginObject | endObject
  | nameSeparator | valueSeparator
  | null
  | bool (value : Bool)
  | number (value : Numeral)
  | string (value : List StringPart)
  deriving DecidableEq, Repr

def ascii (s : String) : Bytes := s.toList.map Char.toUInt8

/-- Whether a byte is white space between tokens: space, tab, line feed or carriage return. -/
def isSpace (b : UInt8) : Bool := b == 32 || b == 9 || b == 10 || b == 13

def isDigit (b : UInt8) : Bool := '0'.toUInt8 ≤ b && b ≤ '9'.toUInt8

def hexValue? (b : UInt8) : Option UInt16 :=
  if isDigit b then some (b - '0'.toUInt8).toUInt16
  else if 'a'.toUInt8 ≤ b && b ≤ 'f'.toUInt8 then some (b - 'a'.toUInt8 + 10).toUInt16
  else if 'A'.toUInt8 ≤ b && b ≤ 'F'.toUInt8 then some (b - 'A'.toUInt8 + 10).toUInt16
  else none

def hexDigit (value : UInt8) : UInt8 :=
  if value < 10 then '0'.toUInt8 + value else 'a'.toUInt8 + (value - 10)

def hexUnit? (a b c d : UInt8) : Option UInt16 := do
  return (((← hexValue? a) * 16 + (← hexValue? b)) * 16 + (← hexValue? c)) * 16 + (← hexValue? d)

def hexDigits (unit : UInt16) : Bytes :=
  [unit >>> 12, unit >>> 8, unit >>> 4, unit].map fun u => hexDigit (u % 16).toUInt8

/-- The letters that may follow a backslash, each with the byte that the escape stands for. -/
def escapes : List (UInt8 × UInt8) :=
  [('"'.toUInt8, 34), ('\\'.toUInt8, 92), ('/'.toUInt8, 47), ('b'.toUInt8, 8), ('f'.toUInt8, 12),
   ('n'.toUInt8, 10), ('r'.toUInt8, 13), ('t'.toUInt8, 9)]

def escaped? (letter : UInt8) : Option UInt8 := escapes.lookup letter

/-- The letter that escapes a byte, for the bytes that are written so. A slash needs no escape. -/
def escapeOf? (byte : UInt8) : Option UInt8 :=
  (escapes.find? fun (_, target) => target == byte && byte != 47).map (·.1)

/-- Read a string up to and over its closing quote, given the parts read already, the latest
first. Control bytes may not stand for themselves. -/
def readString? (parts : List StringPart) : Bytes → Option (List StringPart × Bytes)
  | [] => none
  | byte :: rest =>
    if byte = '"'.toUInt8 then some (parts.reverse, rest)
    else if byte = '\\'.toUInt8 then
      match rest with
      | [] => none
      | letter :: rest =>
        if letter = 'u'.toUInt8 then
          match rest with
          | a :: b :: c :: d :: rest =>
            match hexUnit? a b c d with
            | some unit => readString? (.unit unit :: parts) rest
            | none => none
          | _ => none
        else
          match escaped? letter with
          | some byte => readString? (.byte byte :: parts) rest
          | none => none
    else if byte < 32 then none
    else readString? (.byte byte :: parts) rest

/-- Read as many digits as there are, at least one. -/
def digits? (s : Bytes) : Option (Bytes × Bytes) :=
  let digits := s.takeWhile isDigit
  if digits.isEmpty then none else some (digits, s.dropWhile isDigit)

/-- Read the digits before the point; a zero stands alone. -/
def whole? : Bytes → Option (Bytes × Bytes)
  | [] => none
  | b :: rest => if b = '0'.toUInt8 then some ([b], rest) else digits? (b :: rest)

/-- Read the digits after the point, if there is a point. -/
def fraction? : Bytes → Option (Option Bytes × Bytes)
  | [] => some (none, [])
  | b :: rest =>
    if b = '.'.toUInt8 then (digits? rest).map fun (digits, rest) => (some digits, rest)
    else some (none, b :: rest)

def takeMinus : Bytes → Bool × Bytes
  | [] => (false, [])
  | b :: rest => if b = '-'.toUInt8 then (true, rest) else (false, b :: rest)

def takeSign : Bytes → Bool × Bytes
  | [] => (false, [])
  | b :: rest => if b = '+'.toUInt8 then (false, rest) else takeMinus (b :: rest)

def exponent? : Bytes → Option (Option Exponent × Bytes)
  | [] => some (none, [])
  | b :: rest =>
    if b = 'e'.toUInt8 ∨ b = 'E'.toUInt8 then
      let (negative, rest) := takeSign rest
      (digits? rest).map fun (digits, rest) => (some ⟨negative, digits⟩, rest)
    else some (none, b :: rest)

/-- Read a number; only a minus may stand before it. -/
def numeral? (s : Bytes) : Option (Numeral × Bytes) := do
  let (negative, s) := takeMinus s
  let (whole, s) ← whole? s
  let (fraction, s) ← fraction? s
  let (exponent, s) ← exponent? s
  return ({ negative, whole, fraction, exponent }, s)

/-- The token that a single byte makes. -/
def punctuation? (b : UInt8) : Option Token :=
  if b = '['.toUInt8 then some .beginArray
  else if b = ']'.toUInt8 then some .endArray
  else if b = '{'.toUInt8 then some .beginObject
  else if b = '}'.toUInt8 then some .endObject
  else if b = ':'.toUInt8 then some .nameSeparator
  else if b = ','.toUInt8 then some .valueSeparator
  else none

def literal? (s : Bytes) : Option (Token × Bytes) :=
  (((ascii "null").isPrefixOf? s).map (Token.null, ·)).or <|
    (((ascii "true").isPrefixOf? s).map (Token.bool true, ·)).or <|
      ((ascii "false").isPrefixOf? s).map (Token.bool false, ·)

namespace Token

def read? : Bytes → Option (Token × Bytes)
  | [] => none
  | b :: rest =>
    match punctuation? b with
    | some token => some (token, rest)
    | none =>
      if b = '"'.toUInt8 then (readString? [] rest).map fun (parts, rest) => (string parts, rest)
      else
        (literal? (b :: rest)).or <|
          (numeral? (b :: rest)).map fun (numeral, rest) => (number numeral, rest)

/-- The bytes that spell a part of a string; units are written in four hexadecimal digits. -/
def spellPart : StringPart → Bytes
  | .byte value =>
    match escapeOf? value with
    | some letter => ['\\'.toUInt8, letter]
    | none => [value]
  | .unit value => '\\'.toUInt8 :: 'u'.toUInt8 :: hexDigits value

def spellSign (negative : Bool) : Bytes := if negative then ['-'.toUInt8] else []

/-- The bytes that spell an exponent, of which the sign is always written. -/
def spellExponent (e : Exponent) : Bytes :=
  'e'.toUInt8 :: (if e.negative then '-' else '+').toUInt8 :: e.digits

def spellNumeral (n : Numeral) : Bytes :=
  spellSign n.negative ++ n.whole ++
    (match n.fraction with
      | some digits => '.'.toUInt8 :: digits
      | none => []) ++
    (match n.exponent with
      | some exponent => spellExponent exponent
      | none => [])

def spell : Token → Bytes
  | beginArray => ['['.toUInt8]
  | endArray => [']'.toUInt8]
  | beginObject => ['{'.toUInt8]
  | endObject => ['}'.toUInt8]
  | nameSeparator => [':'.toUInt8]
  | valueSeparator => [','.toUInt8]
  | null => ascii "null"
  | bool true => ascii "true"
  | bool false => ascii "false"
  | number value => spellNumeral value
  | string value => '"'.toUInt8 :: value.flatMap spellPart ++ ['"'.toUInt8]

/-- The tokens of a text, after the ones read already, the latest first, with at most `limit`
more of them. -/
def readAll? (tokens : List Token) : (limit : Nat) → Bytes → Option (List Token)
  | limit, s =>
    match s.dropWhile isSpace, limit with
    | [], _ => some tokens.reverse
    | _ :: _, 0 => none
    | b :: rest, limit + 1 =>
      match read? (b :: rest) with
      | some (token, rest) => readAll? (token :: tokens) limit rest
      | none => none

/-- The tokens of a text. Each takes at least one byte, so the length of the text bounds their
number. -/
def ofText? (s : Bytes) : Option (List Token) := readAll? [] s.length s

/-- The shortest text of a row of tokens. -/
def toText (tokens : List Token) : Bytes := tokens.flatMap spell

end Token

end DuplexRpc.Json
