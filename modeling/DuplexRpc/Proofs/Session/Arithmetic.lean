import DuplexRpc.Proofs.Payload.Readers
import DuplexRpc.Session.Calculator
import Mathlib.Data.Int.ModEq

/-!
# Sums and quotients of 64 bits

A sum is given only when it is exact. A quotient and a remainder always go together: they
belong to the division that truncates towards zero, up to a multiple of `2 ^ 64` that is not
zero in one case only.
-/

namespace DuplexRpc.Calculator

/-- The quotient and the remainder of a division of 64-bit integers that truncates towards zero. -/
structure Divides (a b quotient remainder : Int64) : Prop where
  smaller : remainder.toInt.natAbs < b.toInt.natAbs
  sign : remainder.toInt = 0 ∨ remainder.toInt.sign = a.toInt.sign
  wraps : (quotient.toInt * b.toInt + remainder.toInt) % 2 ^ 64 = a.toInt % 2 ^ 64
  exact : ¬(a.toInt = -2 ^ 63 ∧ b.toInt = -1) →
    quotient.toInt * b.toInt + remainder.toInt = a.toInt
  /-- The one quotient that does not fit. -/
  overflow : a.toInt = -2 ^ 63 → b.toInt = -1 →
    quotient.toInt = -2 ^ 63 ∧ remainder.toInt = 0

theorem holds_i64_iff {n : Int} : IntType.i64.holds n = true ↔ -2 ^ 63 ≤ n ∧ n < 2 ^ 63 :=
  IntType.holds_iff

theorem toInt_ne_zero {b : Int64} (nonzero : b ≠ 0) : b.toInt ≠ 0 := by
  intro zero
  exact nonzero (Int64.toInt_inj.mp (zero.trans Int64.toInt_zero.symm))

theorem divides {a b : Int64} (nonzero : b ≠ 0) : Divides a b (a / b) (a % b) := by
  have remainder : (a % b).toInt = a.toInt.tmod b.toInt := Int64.toInt_mod a b
  have whole : a.toInt.tdiv b.toInt * b.toInt + a.toInt.tmod b.toInt = a.toInt :=
    Int.tdiv_mul_add_tmod _ _
  constructor
  case smaller =>
    rw [remainder, Int.natAbs_tmod]
    exact Nat.mod_lt _ (Int.natAbs_pos.mpr (toInt_ne_zero nonzero))
  case sign =>
    rw [remainder, ← Int.sign_eq_zero_iff_zero, Int.sign_tmod]
    split
    next => exact .inl rfl
    next => exact .inr rfl
  case wraps =>
    have wrapped : (a / b).toInt ≡ a.toInt.tdiv b.toInt [ZMOD 2 ^ 64] := by
      rw [Int64.toInt_div]
      exact Int.bmod_emod
    have congruent := (wrapped.mul_right b.toInt).add_right (a % b).toInt
    rwa [Int.ModEq, remainder, whole, ← remainder] at congruent
  case exact =>
    intro fits
    have quotient : (a / b).toInt = a.toInt.tdiv b.toInt := by
      by_cases least : a = Int64.minValue
      · refine Int64.toInt_div_of_ne_right a b fun minus_one => fits ⟨?_, ?_⟩
        · rw [least, Int64.toInt_minValue]
        · rw [minus_one]
          rfl
      · exact Int64.toInt_div_of_ne_left a b least
    rw [quotient, remainder, whole]
  case overflow =>
    intro least minus_one
    rw [Int64.toInt_div, remainder, least, minus_one]
    exact ⟨rfl, rfl⟩

/-- The least integer divided by -1 comes out as itself. -/
example : Int64.minValue / -1 = Int64.minValue ∧ Int64.minValue % -1 = 0 := by decide

/-- Where the quotient fits, the division is that of the integers. -/
theorem Divides.truncates {a b quotient remainder : Int64} (h : Divides a b quotient remainder)
    (nonzero : b ≠ 0) (fits : ¬(a.toInt = -2 ^ 63 ∧ b.toInt = -1)) :
    a.toInt.tdiv b.toInt = quotient.toInt ∧ a.toInt.tmod b.toInt = remainder.toInt := by
  have smaller := h.smaller
  have whole := h.exact fits
  rw [Int.add_comm, Int.mul_comm] at whole
  -- the remainder lies on the side of zero where the dividend does
  obtain nonnegative | nonpositive := Int.le_total 0 a.toInt
  · have sign : 0 ≤ remainder.toInt := by
      obtain zero | same := h.sign
      · exact Int.le_of_eq zero.symm
      · exact Int.sign_nonneg_iff.mp (same ▸ Int.sign_nonneg_iff.mpr nonnegative)
    refine (Int.tdiv_tmod_unique nonnegative (toInt_ne_zero nonzero)).mpr ?_
    exact ⟨whole, sign, by omega⟩
  · have sign : remainder.toInt ≤ 0 := by
      obtain zero | same := h.sign
      · exact Int.le_of_eq zero
      · exact Int.sign_nonpos_iff.mp (same ▸ Int.sign_nonpos_iff.mpr nonpositive)
    refine (Int.tdiv_tmod_unique' nonpositive (toInt_ne_zero nonzero)).mpr ?_
    exact ⟨whole, by omega, sign⟩

/-- No other quotient and remainder will do. -/
theorem Divides.unique {a b quotient remainder : Int64} (h : Divides a b quotient remainder)
    (nonzero : b ≠ 0) : quotient = a / b ∧ remainder = a % b := by
  have own := divides (a := a) nonzero
  suffices same : quotient.toInt = (a / b).toInt ∧ remainder.toInt = (a % b).toInt from
    ⟨Int64.toInt_inj.mp same.1, Int64.toInt_inj.mp same.2⟩
  by_cases unfit : a.toInt = -2 ^ 63 ∧ b.toInt = -1
  · obtain ⟨quotient_eq, remainder_eq⟩ := h.overflow unfit.1 unfit.2
    obtain ⟨own_quotient, own_remainder⟩ := own.overflow unfit.1 unfit.2
    exact ⟨quotient_eq.trans own_quotient.symm, remainder_eq.trans own_remainder.symm⟩
  · obtain ⟨quotient_eq, remainder_eq⟩ := h.truncates nonzero unfit
    obtain ⟨own_quotient, own_remainder⟩ := own.truncates nonzero unfit
    exact ⟨quotient_eq.symm.trans own_quotient, remainder_eq.symm.trans own_remainder⟩

theorem add_of_fits {o : Operands} {c : Int64} (sum : c.toInt = o.a.toInt + o.b.toInt) :
    add o = .returned (sumValues c) := by
  have fits : IntType.i64.holds (o.a.toInt + o.b.toInt) = true :=
    holds_i64_iff.mpr (sum ▸ ⟨c.le_toInt, c.toInt_lt⟩)
  rw [add, if_pos fits, ← sum, Int64.ofInt_toInt]

theorem add_of_overflow {o : Operands}
    (outside : o.a.toInt + o.b.toInt < -2 ^ 63 ∨ 2 ^ 63 ≤ o.a.toInt + o.b.toInt) :
    add o = .failed "integer overflow" := by
  refine if_neg fun fits => ?_
  have inside := holds_i64_iff.mp fits
  omega

theorem exists_sum_or_overflow (o : Operands) : (∃ c : Int64, c.toInt = o.a.toInt + o.b.toInt) ∨
    (o.a.toInt + o.b.toInt < -2 ^ 63 ∨ 2 ^ 63 ≤ o.a.toInt + o.b.toInt) := by
  by_cases fits : -2 ^ 63 ≤ o.a.toInt + o.b.toInt ∧ o.a.toInt + o.b.toInt < 2 ^ 63
  · exact .inl ⟨_, Int64.toInt_ofInt_of_le fits.1 fits.2⟩
  · exact .inr (by omega)

end DuplexRpc.Calculator
