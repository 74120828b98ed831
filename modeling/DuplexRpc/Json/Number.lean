import DuplexRpc.Json.Binary64
import DuplexRpc.Json.Token

/-!
# JSON numbers

A number without point and exponent is an integer when it fits 64 bits, signed or
unsigned. Every other number is floating point, and so is minus zero. Numbers too
great for a finite value are refused.

Floating point numbers are written with the fewest digits, positionally from `10 ^ -5`
up to `10 ^ 16` and always with a point there, and elsewhere with an exponent and its
sign.
-/

namespace DuplexRpc.Json

/-- A number as a program handles it. -/
inductive Number
  | integer (value : Int) (inRange : -(1 <<< 63) ≤ value ∧ value < 1 <<< 64)
  | float (value : Binary64)
  deriving DecidableEq

def digitsValue (digits : Bytes) : Nat :=
  digits.foldl (fun n d => 10 * n + (d.toNat - 48)) 0

def decimalDigits (n : Nat) : Bytes := (Nat.toDigits 10 n).map Char.toUInt8

namespace Numeral

/-- Append digits to a significand for as long as it fits 64 bits, and return the digits that are
left over. -/
def accumulate (significand : Nat) : Bytes → Nat × Bytes
  | [] => (significand, [])
  | d :: rest =>
    let next := 10 * significand + (d.toNat - 48)
    if next < 1 <<< 64 then accumulate next rest else (significand, d :: rest)

/-- The floating point number that a numeral stands for. Digits that a 64-bit significand has no
room for count as zeros. -/
def float? (n : Numeral) : Option Binary64 :=
  let (significand, dropped) := accumulate 0 n.whole
  let fraction := n.fraction.getD []
  let (significand, unused) := accumulate significand fraction
  let written := match n.exponent with
    | some ⟨negative, digits⟩ =>
      if negative then -Int.ofNat (digitsValue digits) else Int.ofNat (digitsValue digits)
    | none => 0
  let places := Int.ofNat dropped.length - Int.ofNat (fraction.length - unused.length)
  Binary64.ofDecimal? n.negative significand (places + written)

/-- The integer that a numeral stands for, if it is spelled as one and is not minus zero. -/
def integer? (n : Numeral) : Option Int :=
  if n.fraction.isSome || n.exponent.isSome then none
  else if n.negative then
    if digitsValue n.whole = 0 then none else some (-Int.ofNat (digitsValue n.whole))
  else some (Int.ofNat (digitsValue n.whole))

def ofInt (value : Int) : Numeral :=
  { negative := value < 0, whole := decimalDigits value.natAbs, fraction := none, exponent := none }

/-- The numeral of a positive decimal number, positional for moderate exponents. -/
def ofDecimal (negative : Bool) (d : Binary64.Decimal) : Numeral :=
  let digits := decimalDigits d.digits
  let zero := '0'.toUInt8
  let point := Int.ofNat digits.length + d.exponent
  if 0 ≤ d.exponent ∧ point ≤ 16 then
    { negative, whole := digits ++ List.replicate d.exponent.toNat zero, fraction := some [zero],
      exponent := none }
  else if 0 < point ∧ point ≤ 16 then
    { negative, whole := digits.take point.toNat, fraction := some (digits.drop point.toNat),
      exponent := none }
  else if -5 < point ∧ point ≤ 0 then
    { negative, whole := [zero], fraction := some (List.replicate (-point).toNat zero ++ digits),
      exponent := none }
  else
    let exponent := some ⟨point - 1 < 0, decimalDigits (point - 1).natAbs⟩
    { negative, whole := digits.take 1,
      fraction := if digits.length = 1 then none else some (digits.drop 1), exponent }

def ofFloat (x : Binary64) : Numeral :=
  let zero := '0'.toUInt8
  if x.magnitudeBits = 0 then
    { negative := x.isNegative, whole := [zero], fraction := some [zero], exponent := none }
  else ofDecimal x.isNegative (Binary64.shortest x.magnitudeBits)

end Numeral

namespace Number

def ofNumeral? (n : Numeral) : Option Number :=
  match n.integer? with
  | some value =>
    if h : -(1 <<< 63) ≤ value ∧ value < 1 <<< 64 then some (.integer value h)
    else n.float?.map .float
  | none => n.float?.map .float

def toNumeral : Number → Numeral
  | .integer value _ => .ofInt value
  | .float value => .ofFloat value

/-- The integer that a number is; a floating point number is none, even a whole one. -/
def toInt? : Number → Option Int
  | .integer value _ => some value
  | .float _ => none

end Number

end DuplexRpc.Json
