/-!
# Binary floating point

The 64-bit binary numbers of the usual floating point format, handled by exact
arithmetic on natural numbers. Rounding goes to the nearest number, and halfway to the
one with an even significand. Decimal output takes the fewest digits that read back as
the same number, and of those the nearest to it.
-/

namespace DuplexRpc.Json

/-- A floating point number, by its bits: sign, 11 bits of exponent, 52 bits of fraction. -/
structure Binary64 where
  bits : UInt64
  deriving DecidableEq, Repr

/-- A finite magnitude: `significand * 2 ^ exponent`. -/
structure Dyadic where
  significand : Nat
  exponent : Int
  deriving DecidableEq, Repr

namespace Binary64

/-- The bits of the magnitudes from infinity on. -/
def infinity : Nat := 2047 <<< 52

def isNegative (x : Binary64) : Bool := 1 <<< 63 ≤ x.bits.toNat

def magnitudeBits (x : Binary64) : Nat := x.bits.toNat % 1 <<< 63

/-- The magnitude that bits stand for; the least exponent serves the numbers without a leading
one as well. -/
def magnitude (bits : Nat) : Dyadic :=
  if bits < 1 <<< 52 then ⟨bits, -1074⟩
  else ⟨1 <<< 52 + bits % 1 <<< 52, Int.ofNat (bits >>> 52) - 1075⟩

def ofMagnitude (negative : Bool) (bits : Nat) : Binary64 :=
  ⟨UInt64.ofNat (if negative then 1 <<< 63 + bits else bits)⟩

/-- The whole number nearest to a ratio, halfway the even one. -/
def roundRatio (num den : Nat) : Nat :=
  let quotient := num / den
  let twice := 2 * (num % den)
  if den < twice || (twice == den && quotient % 2 == 1) then quotient + 1 else quotient

/-- The ratio `num / den` times a power of two, as a ratio. -/
def scale (num den : Nat) (power : Int) : Nat × Nat :=
  (num <<< power.toNat, den <<< (-power).toNat)

/-- The exponent of the greatest power of two that is not above a positive ratio. -/
def floorLog2 (num den : Nat) : Int :=
  let guess := Int.ofNat num.log2 - Int.ofNat den.log2
  let (n, d) := scale num den (-guess)
  if d ≤ n then guess else guess - 1

/-- The bits of the magnitude nearest to a ratio. A significand that rounds up to the next power
of two carries into the exponent by itself. -/
def ofRatio (num den : Nat) : Nat :=
  if num = 0 then 0
  else
    let exponent := max (floorLog2 num den - 52) (-1074)
    let (n, d) := scale num den (-exponent)
    min infinity ((exponent + 1074).toNat <<< 52 + roundRatio n d)

/-- The bits nearest to the product of two magnitudes, given by their bits. -/
def mul (a b : Nat) : Nat :=
  let x := magnitude a
  let y := magnitude b
  let (n, d) := scale (x.significand * y.significand) 1 (x.exponent + y.exponent)
  ofRatio n d

/-- The bits nearest to the quotient of two magnitudes, the second one not being zero. -/
def div (a b : Nat) : Nat :=
  let x := magnitude a
  let y := magnitude b
  let (n, d) := scale x.significand y.significand (x.exponent - y.exponent)
  ofRatio n d

def powerOfTen (n : Nat) : Nat := ofRatio (Nat.pow 10 n) 1

/-- Divide a magnitude by `10 ^ power`, in steps of at most `10 ^ 308`. -/
def divPowerOfTen (bits : Nat) (power : Nat) : Nat :=
  if power ≤ 308 then div bits (powerOfTen power)
  else
    let smaller := div bits (powerOfTen 308)
    if smaller = 0 then 0 else divPowerOfTen smaller (power - 308)
termination_by power

/-- Multiply a magnitude by `10 ^ power`, unless that is too great for a finite number. -/
def mulPowerOfTen? (bits : Nat) (power : Nat) : Option Nat :=
  if bits = 0 then some 0
  else if 308 < power then none
  else
    let greater := mul bits (powerOfTen power)
    if greater < infinity then some greater else none

/-- The number for `significand * 10 ^ exponent`. The significand is rounded first and the power
of ten is applied to the result, so the last bit may differ from that of the nearest number. -/
def ofDecimal? (negative : Bool) (significand : Nat) (exponent : Int) : Option Binary64 :=
  let bits := ofRatio significand 1
  if exponent < 0 then some (ofMagnitude negative (divPowerOfTen bits exponent.natAbs))
  else (mulPowerOfTen? bits exponent.natAbs).map (ofMagnitude negative)

/-- A positive decimal number: `digits * 10 ^ exponent`. -/
structure Decimal where
  digits : Nat
  exponent : Int
  deriving DecidableEq, Repr

/-- The same number with one zero less at its end, if it has one there. -/
def Decimal.trim (d : Decimal) : Decimal :=
  if d.digits % 10 = 0 then ⟨d.digits / 10, d.exponent + 1⟩ else d

/-- The number of decimal digits of a ratio before the point; for a ratio below one, minus the
number of zeros behind the point. At most `tries` zeros are counted. -/
def decimalPoint (num den : Nat) (tries : Nat) : Int :=
  if den ≤ num then (Nat.toDigits 10 (num / den)).length
  else
    match tries with
    | 0 => 0
    | tries + 1 => if den ≤ 10 * num then 0 else decimalPoint (10 * num) den tries - 1

/-- Whether a decimal number rounds to the magnitude of the given bits, which are not zero. The
numbers that do lie between the midpoints to the two neighbours; the midpoints belong to them when
the significand is even. -/
def roundsTo (bits : Nat) (d : Decimal) : Bool :=
  let x := magnitude bits
  -- In units of a quarter of the last place.
  let below := if x.significand = 1 <<< 52 && 1 <<< 53 ≤ bits then 1 else 2
  let low := 4 * x.significand - below
  let high := 4 * x.significand + 2
  let power := x.exponent - 2
  let left := (d.digits * Nat.pow 10 d.exponent.toNat) <<< (-power).toNat
  let unit := Nat.pow 10 (-d.exponent).toNat <<< power.toNat
  if x.significand % 2 = 0 then low * unit ≤ left && left ≤ high * unit
  else low * unit < left && left < high * unit

/-- The decimal number of `count` digits nearest to a magnitude among its two neighbours on that
grid, if one of them rounds to it. Halfway, the even one is taken. -/
def nearest? (bits : Nat) (point : Int) (count : Nat) : Option Decimal :=
  let x := magnitude bits
  let exponent := point - Int.ofNat count
  let (n, d) := scale x.significand 1 x.exponent
  let n := n * Nat.pow 10 (-exponent).toNat
  let d := d * Nat.pow 10 exponent.toNat
  let near := roundRatio n d
  let far := if near = n / d then near + 1 else n / d
  if roundsTo bits ⟨near, exponent⟩ then some ⟨near, exponent⟩
  else if roundsTo bits ⟨far, exponent⟩ then some ⟨far, exponent⟩
  else none

/-- The shortest decimal number that rounds to a magnitude. Seventeen digits always do. A digit
that is rounded up to ten brings a zero with it. -/
def shortest (bits : Nat) : Decimal :=
  let x := magnitude bits
  let (n, d) := scale x.significand 1 x.exponent
  let point := decimalPoint n d 330
  (((List.range 17).findSome? fun i => nearest? bits point (i + 1)).getD ⟨0, 0⟩).trim

end Binary64

end DuplexRpc.Json
