import DuplexRpc.Proofs.Json.Grammar

/-!
# Numerals

A reader that meets a number takes all of it, provided that what follows cannot continue a
number. The numeral of an integer spells that integer: its digits are decimal digits without
a leading zero, and reading them gives the number back.
-/

namespace DuplexRpc.Json

open Productions

/-- What holds of all codes below 256 holds of all bytes. -/
theorem forall_byte {p : UInt8 → Prop} (h : ∀ n < 256, p (UInt8.ofNat n)) (b : UInt8) : p b := by
  have code := h b.toNat b.toNat_lt
  rwa [UInt8.ofNat_toNat] at code

/-! ### Digits -/

theorem isDigit_digitChar {n : Nat} (hn : n < 10) : isDigit n.digitChar.toUInt8 = true := by
  have all : ∀ n < 10, isDigit (Nat.digitChar n).toUInt8 = true := by decide
  exact all n hn

theorem value_digitChar {n : Nat} (hn : n < 10) : n.digitChar.toUInt8.toNat - 48 = n := by
  have all : ∀ n < 10, (Nat.digitChar n).toUInt8.toNat - 48 = n := by decide
  exact all n hn

theorem digitChar_eq_zero_iff {n : Nat} (hn : n < 10) :
    n.digitChar.toUInt8 = '0'.toUInt8 ↔ n = 0 := by
  have all : ∀ n < 10, (Nat.digitChar n).toUInt8 = '0'.toUInt8 ↔ n = 0 := by decide
  exact all n hn

theorem decimalDigits_of_lt {n : Nat} (hn : n < 10) :
    decimalDigits n = [n.digitChar.toUInt8] := by
  simp [decimalDigits, Nat.toDigits_of_lt_base hn]

theorem decimalDigits_of_le {n : Nat} (hn : 10 ≤ n) :
    decimalDigits n = decimalDigits (n / 10) ++ [(n % 10).digitChar.toUInt8] := by
  simp [decimalDigits, Nat.toDigits_of_base_le (by decide) hn]

theorem isDigit_of_mem_decimalDigits {n : Nat} {d : UInt8} (hd : d ∈ decimalDigits n) :
    isDigit d = true := by
  induction n using Nat.strongRecOn with
  | ind n ih =>
      by_cases hn : n < 10
      · rw [decimalDigits_of_lt hn, List.mem_singleton] at hd
        exact hd ▸ isDigit_digitChar hn
      · rw [decimalDigits_of_le (by omega), List.mem_append, List.mem_singleton] at hd
        rcases hd with earlier | rfl
        · exact ih (n / 10) (by omega) earlier
        · exact isDigit_digitChar (by omega)

theorem digitsValue_append (digits : Bytes) (d : UInt8) :
    digitsValue (digits ++ [d]) = 10 * digitsValue digits + (d.toNat - 48) := by
  simp [digitsValue]

@[simp] theorem digitsValue_decimalDigits (n : Nat) : digitsValue (decimalDigits n) = n := by
  induction n using Nat.strongRecOn with
  | ind n ih =>
      by_cases hn : n < 10
      · rw [decimalDigits_of_lt hn]
        simpa [digitsValue] using value_digitChar hn
      · rw [decimalDigits_of_le (by omega), digitsValue_append, ih (n / 10) (by omega),
          value_digitChar (by omega)]
        omega

/-- Only the number zero is written with a zero in front, and then that is all of it. -/
theorem decimalDigits_eq_cons (n : Nat) : ∃ d rest, decimalDigits n = d :: rest ∧
    (d = '0'.toUInt8 → rest = []) := by
  have front : ∃ d rest, decimalDigits n = d :: rest ∧ (d = '0'.toUInt8 → n = 0) := by
    induction n using Nat.strongRecOn with
    | ind n ih =>
        by_cases hn : n < 10
        · exact ⟨_, [], decimalDigits_of_lt hn, (digitChar_eq_zero_iff hn).mp⟩
        · obtain ⟨d, rest, he, hz⟩ := ih (n / 10) (by omega)
          refine ⟨d, rest ++ [(n % 10).digitChar.toUInt8], ?_, fun h => ?_⟩
          · rw [decimalDigits_of_le (by omega), he, List.cons_append]
          · have := hz h
            omega
  obtain ⟨d, rest, he, hz⟩ := front
  refine ⟨d, rest, he, fun h => ?_⟩
  rw [hz h, decimalDigits_of_lt (by decide)] at he
  exact (List.cons.inj he).2.symm

/-! ### Reading numbers -/

/-- Whether a text cannot continue a number that stands before it. -/
def EndsNumber : Bytes → Prop
  | [] => True
  | b :: _ => isDigit b = false ∧ b ≠ '.'.toUInt8 ∧ b ≠ 'e'.toUInt8 ∧ b ≠ 'E'.toUInt8

instance : (s : Bytes) → Decidable (EndsNumber s)
  | [] => .isTrue trivial
  | _ :: _ => inferInstanceAs (Decidable (_ ∧ _ ∧ _ ∧ _))

def NoDigit : Bytes → Prop
  | [] => True
  | b :: _ => isDigit b = false

theorem digits?_append {digits rest : Bytes} (h : Digits digits) (stop : NoDigit rest) :
    digits? (digits ++ rest) = some (digits, rest) := by
  have stopped : rest.takeWhile isDigit = [] ∧ rest.dropWhile isDigit = rest := by
    cases rest with
    | nil => exact ⟨rfl, rfl⟩
    | cons b rest =>
        have other : ¬ isDigit b := Bool.eq_false_iff.mp stop
        exact ⟨List.takeWhile_cons_of_neg other, List.dropWhile_cons_of_neg other⟩
  have some_digit : digits.isEmpty = false := List.isEmpty_eq_false_iff.mpr h.1
  simp only [digits?, List.takeWhile_append_of_pos h.2, List.dropWhile_append_of_pos h.2,
    stopped.1, stopped.2, List.append_nil, some_digit, Bool.false_eq_true, if_false]

theorem exists_eq_cons_of_spellsWhole {s : Bytes} (h : SpellsWhole s) :
    ∃ d rest, s = d :: rest ∧ isDigit d := by
  cases h with
  | zero => exact ⟨_, _, rfl, rfl⟩
  | digits h other => exact ⟨_, _, rfl, h.2 _ List.mem_cons_self⟩

theorem whole?_of_spells {s rest : Bytes} (h : SpellsWhole s) (stop : NoDigit rest) :
    whole? (s ++ rest) = some (s, rest) := by
  cases h with
  | zero => rfl
  | digits h other =>
      rw [List.cons_append, whole?, if_neg other, ← List.cons_append]
      exact digits?_append h stop

theorem fraction?_of_spells {s rest : Bytes} {fraction : Option Bytes}
    (h : SpellsFraction s fraction) (stop : NoDigit rest)
    (noPoint : rest.head? ≠ some '.'.toUInt8) : fraction? (s ++ rest) = some (fraction, rest) := by
  cases h with
  | none =>
      cases rest with
      | nil => rfl
      | cons b rest =>
          have other : b ≠ '.'.toUInt8 := fun same => noPoint (congrArg some same)
          rw [List.nil_append, fraction?, if_neg other]
  | some h =>
      rw [List.cons_append, fraction?, if_pos rfl, digits?_append h stop]
      rfl

/-- No digit is a sign. -/
theorem notSign_of_isDigit {d : UInt8} (h : isDigit d) : d ≠ '+'.toUInt8 ∧ d ≠ '-'.toUInt8 := by
  constructor <;> rintro rfl <;> exact absurd h (by decide)

theorem takeMinus_append (negative : Bool) {d : UInt8} (h : isDigit d) (rest : Bytes) :
    takeMinus ((if negative then ['-'.toUInt8] else []) ++ d :: rest) = (negative, d :: rest) := by
  cases negative with
  | true => rfl
  | false =>
      simp only [Bool.false_eq_true, if_false, List.nil_append, takeMinus, (notSign_of_isDigit h).2]

theorem takeSign_append {sign : Bytes} {negative : Bool} (h : SpellsSign sign negative) {d : UInt8}
    (digit : isDigit d) (rest : Bytes) : takeSign (sign ++ d :: rest) = (negative, d :: rest) := by
  cases h with
  | none =>
      rw [List.nil_append, takeSign, if_neg (notSign_of_isDigit digit).1]
      exact takeMinus_append false digit rest
  | plus => rfl
  | minus => rfl

theorem exponent?_of_spells {s rest : Bytes} {exponent : Option Exponent}
    (h : SpellsExponent s exponent) (ends : EndsNumber rest) (stop : NoDigit rest) :
    exponent? (s ++ rest) = some (exponent, rest) := by
  cases h with
  | none =>
      cases rest with
      | nil => rfl
      | cons b rest => simp [exponent?, ends.2.2.1, ends.2.2.2]
  | @some mark sign digits negative letter signed h =>
      have signs : takeSign (sign ++ (digits ++ rest)) = (negative, digits ++ rest) := by
        obtain ⟨nonempty, all⟩ := h
        cases digits with
        | nil => exact absurd rfl nonempty
        | cons d digits => exact takeSign_append signed (all d List.mem_cons_self) _
      rw [List.cons_append, List.cons_append, List.append_assoc, exponent?, if_pos letter]
      simp only [signs, digits?_append h stop, Option.map_some]

/-- What stands behind the digits before the point is no digit. -/
theorem NoDigit.of_fraction {s rest : Bytes} {fraction : Option Bytes}
    (h : SpellsFraction s fraction) (stop : NoDigit rest) : NoDigit (s ++ rest) := by
  cases h with
  | none => exact stop
  | some _ => exact rfl

/-- What stands behind the digits after the point is neither a digit nor a point. -/
theorem NoDigit.of_exponent {s rest : Bytes} {exponent : Option Exponent}
    (h : SpellsExponent s exponent) (ends : EndsNumber rest) :
    NoDigit (s ++ rest) ∧ (s ++ rest).head? ≠ some '.'.toUInt8 := by
  cases h with
  | none =>
      cases rest with
      | nil => exact ⟨trivial, nofun⟩
      | cons b rest => exact ⟨ends.1, fun same => ends.2.1 (Option.some.inj same)⟩
  | some letter _ _ =>
      obtain rfl | rfl := letter
      · exact ⟨rfl, fun same => absurd (Option.some.inj same) (by decide)⟩
      · exact ⟨rfl, fun same => absurd (Option.some.inj same) (by decide)⟩

/-- A number is read as it is spelled, provided that what follows cannot continue it. -/
theorem numeral?_of_spells {s rest : Bytes} {n : Numeral} (h : SpellsNumber s n)
    (ends : EndsNumber rest) : numeral? (s ++ rest) = some (n, rest) := by
  obtain @⟨whole, fraction, exponent, _, _, negative, hw, hf, he⟩ := h
  obtain ⟨noDigit, noPoint⟩ := NoDigit.of_exponent he ends
  have stop : NoDigit rest := (NoDigit.of_exponent .none ends).1
  have minus : takeMinus ((if negative then ['-'.toUInt8] else []) ++ whole ++ fraction ++
      exponent ++ rest) = (negative, whole ++ (fraction ++ (exponent ++ rest))) := by
    obtain ⟨d, digits, rfl, digit⟩ := exists_eq_cons_of_spellsWhole hw
    simpa only [List.append_assoc, List.cons_append] using takeMinus_append negative digit _
  simp only [numeral?, minus, whole?_of_spells hw (.of_fraction hf noDigit),
    fraction?_of_spells hf noDigit noPoint, exponent?_of_spells he ends stop,
    Option.bind_eq_bind, Option.bind_some]
  rfl

theorem exists_eq_cons_of_spellsNumber {s : Bytes} {n : Numeral} (h : SpellsNumber s n) :
    ∃ b rest, s = b :: rest ∧ (b = '-'.toUInt8 ∨ isDigit b = true) := by
  obtain @⟨whole, fraction, exponent, _, _, negative, hw, -, -⟩ := h
  obtain ⟨d, digits, rfl, digit⟩ := exists_eq_cons_of_spellsWhole hw
  cases negative with
  | true => exact ⟨_, _, rfl, .inl rfl⟩
  | false => exact ⟨_, _, rfl, .inr digit⟩

/-! ### Integers -/

/-- The numeral of an integer is a number. -/
theorem spellsNumber_ofInt (value : Int) :
    SpellsNumber (Token.spellNumeral (.ofInt value)) (.ofInt value) := by
  have whole : SpellsWhole (decimalDigits value.natAbs) := by
    obtain ⟨d, rest, digits, alone⟩ := decimalDigits_eq_cons value.natAbs
    by_cases zero : d = '0'.toUInt8
    · rw [digits, alone zero, zero]
      exact .zero
    · rw [digits]
      refine .digits ⟨List.cons_ne_nil _ _, fun b hb => ?_⟩ zero
      exact isDigit_of_mem_decimalDigits (digits ▸ hb)
  exact .intro _ whole .none .none

@[simp] theorem integer?_ofInt (value : Int) : (Numeral.ofInt value).integer? = some value := by
  by_cases negative : value < 0
  · have notZero : value.natAbs ≠ 0 := by omega
    have magnitude : -Int.ofNat value.natAbs = value := by
      simp only [Int.ofNat_eq_natCast]
      omega
    simp only [Numeral.integer?, Numeral.ofInt, negative, digitsValue_decimalDigits, notZero,
      magnitude, Option.isSome_none, Bool.or_self, decide_true, if_true, if_false,
      Bool.false_eq_true]
  · have magnitude : Int.ofNat value.natAbs = value := by
      simp only [Int.ofNat_eq_natCast]
      omega
    simp only [Numeral.integer?, Numeral.ofInt, negative, digitsValue_decimalDigits, magnitude,
      Option.isSome_none, Bool.or_self, decide_false, if_false, Bool.false_eq_true]

/-- An integer of 64 bits is read back from its numeral. -/
@[simp] theorem ofNumeral?_ofInt {value : Int} (h : -(1 <<< 63) ≤ value ∧ value < 1 <<< 64) :
    Number.ofNumeral? (.ofInt value) = some (.integer value h) := by
  simp only [Number.ofNumeral?, integer?_ofInt, dif_pos h]

end DuplexRpc.Json
