import DuplexRpc.Json.StringText
import DuplexRpc.Proofs.Json.Numerals

/-!
# Spelling tokens

A text that was written token by token is read as the same tokens. Strings come back
part by part, because every part is spelled in the one way that stands for it. Numbers
need something behind them that does not look like more digits; in the text of a tree
that is a bracket, a brace or a separator.
-/

namespace DuplexRpc.Json

open Productions

/-! ### Strings -/

namespace StringText

theorem escaped?_of_escapeOf? {b letter : UInt8} (h : escapeOf? b = some letter) :
    letter ≠ 'u'.toUInt8 ∧ escaped? letter = some b := by
  have all : ∀ b, ∀ letter ∈ escapeOf? b, letter ≠ 'u'.toUInt8 ∧ escaped? letter = some b :=
    forall_byte (by decide +kernel)
  exact all b letter h

theorem hexUnit?_of_control {b : UInt8} (h : b < 32) : ∃ w x y z,
    hexDigits b.toUInt16 = [w, x, y, z] ∧ hexUnit? w x y z = some b.toUInt16 := by
  have all : ∀ n < 32, ∃ w x y z, hexDigits (UInt8.ofNat n).toUInt16 = [w, x, y, z] ∧
      hexUnit? w x y z = some (UInt8.ofNat n).toUInt16 := by
    intro n hn
    refine ⟨_, _, _, _, rfl, ?_⟩
    revert n
    decide
  simpa using all b.toNat (UInt8.lt_iff_toNat_lt.mp h)

theorem encodeByte_of_escape {b letter : UInt8} (h : escapeOf? b = some letter) :
    encodeByte b = .byte b := by
  simp [encodeByte, h]

theorem encodeByte_of_control {b : UInt8} (h : escapeOf? b = none) (hb : b < 32) :
    encodeByte b = .unit b.toUInt16 := by
  simp [encodeByte, h, hb]

theorem encodeByte_of_plain {b : UInt8} (hb : ¬ b < 32) : encodeByte b = .byte b := by
  simp [encodeByte, hb]

theorem slash_ne_quote : '\\'.toUInt8 ≠ '"'.toUInt8 := by decide

/-- A byte is read back from its preferred spelling. -/
theorem readString?_spellPart (b : UInt8) (parts : List StringPart) (rest : Bytes) :
    readString? parts (Token.spellPart (encodeByte b) ++ rest) =
      readString? (encodeByte b :: parts) rest := by
  cases he : escapeOf? b with
  | some letter =>
      obtain ⟨notUnit, meant⟩ := escaped?_of_escapeOf? he
      rw [encodeByte_of_escape he]
      simp only [Token.spellPart, he, List.cons_append, List.nil_append]
      rw [readString?.eq_def]
      simp [slash_ne_quote, notUnit, meant]
  | none =>
      by_cases hb : b < 32
      · obtain ⟨w, x, y, z, digits, unit⟩ := hexUnit?_of_control hb
        rw [encodeByte_of_control he hb]
        simp only [Token.spellPart, digits, List.cons_append, List.nil_append]
        rw [readString?.eq_def]
        simp [slash_ne_quote, unit]
      · have notQuote : b ≠ '"'.toUInt8 := by
          rintro rfl
          exact absurd he (by decide)
        have notSlash : b ≠ '\\'.toUInt8 := by
          rintro rfl
          exact absurd he (by decide)
        rw [encodeByte_of_plain hb]
        simp only [Token.spellPart, he, List.singleton_append]
        rw [readString?.eq_def]
        simp [notQuote, notSlash, hb]

/-- A string is read up to its closing quote. -/
theorem readString?_spell (bytes : Bytes) (parts : List StringPart) (rest : Bytes) :
    readString? parts ((bytes.map encodeByte).flatMap Token.spellPart ++ '"'.toUInt8 :: rest) =
      some (parts.reverse ++ bytes.map encodeByte, rest) := by
  induction bytes generalizing parts with
  | nil => simp [readString?.eq_def]
  | cons b bytes ih =>
      rw [List.map_cons, List.flatMap_cons, List.append_assoc, readString?_spellPart, ih]
      simp

theorem bytes?_control {b : UInt8} (hb : b < 32) : isHigh b.toUInt16 = false ∧
    isLow b.toUInt16 = false ∧ String.utf8EncodeChar (Char.ofNat b.toUInt16.toNat) = [b] := by
  have all : ∀ n < 32, isHigh (UInt8.ofNat n).toUInt16 = false ∧
      isLow (UInt8.ofNat n).toUInt16 = false ∧
      String.utf8EncodeChar (Char.ofNat (UInt8.ofNat n).toUInt16.toNat) = [UInt8.ofNat n] := by
    decide
  simpa using all b.toNat (UInt8.lt_iff_toNat_lt.mp hb)

theorem bytes?_encodeByte (b : UInt8) (done : Bytes) (rest : List StringPart) :
    bytes? done (encodeByte b :: rest) = bytes? (b :: done) rest := by
  cases he : escapeOf? b with
  | some letter => rw [encodeByte_of_escape he, bytes?]
  | none =>
      by_cases hb : b < 32
      · obtain ⟨notHigh, notLow, spelled⟩ := bytes?_control hb
        rw [encodeByte_of_control he hb, bytes?.eq_def]
        simp only [notHigh, notLow, spelled, Bool.false_eq_true, if_false, List.reverse_singleton,
          List.singleton_append]
      · rw [encodeByte_of_plain hb, bytes?]

theorem bytes?_map_encodeByte (bytes done : Bytes) :
    bytes? done (bytes.map encodeByte) = some (done.reverse ++ bytes) := by
  induction bytes generalizing done with
  | nil => simp [bytes?]
  | cons b bytes ih => rw [List.map_cons, bytes?_encodeByte, ih]; simp

/-- A text is what its preferred spelling stands for. -/
@[simp] theorem decode?_encode (s : String) : decode? (encode s) = some s := by
  simp [decode?, encode, bytes?_map_encodeByte]

end StringText

/-! ### Single tokens -/

namespace Token

/-- Whether a token is a number or a string as a writer spells it. -/
def Tidy : Token → Prop
  | number value => ∃ n, value = .ofInt n
  | string parts => ∃ bytes : Bytes, parts = bytes.map StringText.encodeByte
  | _ => True

/-- Whether a token may go on behind its end. -/
def isNumber : Token → Bool
  | number _ => true
  | _ => false

/-- A byte with which a number may begin begins nothing else. -/
theorem numberStart {b : UInt8} (h : b = '-'.toUInt8 ∨ isDigit b = true) :
    punctuation? b = none ∧ b ≠ '"'.toUInt8 ∧ isSpace b = false ∧
      b ≠ 'n'.toUInt8 ∧ b ≠ 't'.toUInt8 ∧ b ≠ 'f'.toUInt8 := by
  have all : ∀ b, b = '-'.toUInt8 ∨ isDigit b = true → punctuation? b = none ∧
      b ≠ '"'.toUInt8 ∧ isSpace b = false ∧ b ≠ 'n'.toUInt8 ∧ b ≠ 't'.toUInt8 ∧
      b ≠ 'f'.toUInt8 := forall_byte (by decide +kernel)
  exact all b h

theorem isPrefixOf?_of_ne {a b : UInt8} (h : b ≠ a) (word rest : Bytes) :
    (a :: word).isPrefixOf? (b :: rest) = none :=
  if_neg fun same => h (beq_iff_eq.mp same).symm

theorem literal?_eq_none {b : UInt8} (hn : b ≠ 'n'.toUInt8) (ht : b ≠ 't'.toUInt8)
    (hf : b ≠ 'f'.toUInt8) (rest : Bytes) : literal? (b :: rest) = none := by
  have null : (ascii "null").isPrefixOf? (b :: rest) = none := isPrefixOf?_of_ne hn _ rest
  have isTrue : (ascii "true").isPrefixOf? (b :: rest) = none := isPrefixOf?_of_ne ht _ rest
  have isFalse : (ascii "false").isPrefixOf? (b :: rest) = none := isPrefixOf?_of_ne hf _ rest
  simp [literal?, null, isTrue, isFalse]

theorem read?_of_spellsNumber {s rest : Bytes} {n : Numeral} (h : SpellsNumber s n)
    (ends : EndsNumber rest) : read? (s ++ rest) = some (number n, rest) := by
  have numeral := numeral?_of_spells h ends
  obtain ⟨b, more, rfl, start⟩ := exists_eq_cons_of_spellsNumber h
  obtain ⟨mark, quote, -, hn, ht, hf⟩ := numberStart start
  rw [List.cons_append] at numeral ⊢
  simp [read?, mark, quote, literal?_eq_none hn ht hf, numeral]

/-- A token is read back from its spelling. -/
theorem read?_spell {t : Token} (ht : t.Tidy) {rest : Bytes}
    (hr : t.isNumber = true → EndsNumber rest) : read? (t.spell ++ rest) = some (t, rest) := by
  cases t with
  | number value =>
      obtain ⟨n, rfl⟩ := ht
      exact read?_of_spellsNumber (spellsNumber_ofInt n) (hr rfl)
  | string parts =>
      obtain ⟨bytes, rfl⟩ := ht
      have string := StringText.readString?_spell bytes [] rest
      simp only [List.reverse_nil, List.nil_append] at string
      have quote : punctuation? '"'.toUInt8 = none := by decide
      simp [spell, read?, quote, string]
  | bool value => cases value <;> rfl
  | _ => rfl

theorem spell_eq_cons {t : Token} (ht : t.Tidy) :
    ∃ b rest, t.spell = b :: rest ∧ isSpace b = false := by
  cases t with
  | number value =>
      obtain ⟨n, rfl⟩ := ht
      obtain ⟨b, rest, he, start⟩ := exists_eq_cons_of_spellsNumber (spellsNumber_ofInt n)
      exact ⟨b, rest, he, (numberStart start).2.2.1⟩
  | bool value => cases value <;> exact ⟨_, _, rfl, rfl⟩
  | _ => exact ⟨_, _, rfl, rfl⟩

/-! ### Rows of tokens -/

/-- Whether a text is read as a row of tokens. White space may stand before each of them and behind
the last one. -/
inductive Row : Bytes → List Token → Prop
  | done {gap : Bytes} (h : Ws gap) : Row gap []
  | token {gap rest : Bytes} {t : Token} {tokens : List Token} (h : Ws gap)
      (first : UInt8) (more : Bytes) (visible : isSpace first = false)
      (read : read? (first :: (more ++ rest)) = some (t, rest)) (hr : Row rest tokens) :
      Row (gap ++ first :: (more ++ rest)) (t :: tokens)

theorem Row.length_le {s : Bytes} {tokens : List Token} (h : Row s tokens) :
    tokens.length ≤ s.length := by
  induction h with
  | done h => exact Nat.zero_le _
  | token h first more visible read hr ih =>
      simp only [List.length_append, List.length_cons]
      omega

theorem readAll?_of_row {s : Bytes} {tokens : List Token} (h : Row s tokens) (done : List Token)
    {limit : Nat} (hl : tokens.length ≤ limit) :
    readAll? done limit s = some (done.reverse ++ tokens) := by
  induction h generalizing done limit with
  | @done gap h =>
      have nothing : gap.dropWhile isSpace = [] := by
        rw [← List.append_nil gap, List.dropWhile_append_of_pos h, List.dropWhile_nil]
      rw [readAll?.eq_def]
      simp only [nothing, List.append_nil]
  | @token gap rest t tokens h first more visible read hr ih =>
      obtain ⟨limit, rfl⟩ : ∃ n, limit = n + 1 := ⟨limit - 1, by simp at hl; omega⟩
      have front : (gap ++ first :: (more ++ rest)).dropWhile isSpace =
          first :: (more ++ rest) := by
        rw [List.dropWhile_append_of_pos h, List.dropWhile_cons_of_neg (by simp [visible])]
      rw [readAll?.eq_def]
      simp only [front, read]
      rw [ih _ (by simpa using hl)]
      simp

/-- A text that is read as a row of tokens has these tokens. -/
theorem ofText?_of_row {s : Bytes} {tokens : List Token} (h : Row s tokens) :
    ofText? s = some tokens :=
  readAll?_of_row h [] h.length_le

/-- Whether nothing in a row of tokens makes a number before it longer. -/
def Spaced : List Token → Prop
  | [] => True
  | t :: rest => (t.isNumber = true → EndsNumber (toText rest)) ∧ Spaced rest

@[simp] theorem toText_nil : toText [] = [] := rfl

@[simp] theorem toText_cons (t : Token) (rest : List Token) :
    toText (t :: rest) = t.spell ++ toText rest := rfl

theorem row_toText {tokens : List Token} (tidy : ∀ t ∈ tokens, t.Tidy) (spaced : Spaced tokens) :
    Row (toText tokens) tokens := by
  induction tokens with
  | nil => exact .done (List.forall_mem_nil _)
  | cons t rest ih =>
      obtain ⟨tidy, later⟩ := List.forall_mem_cons.mp tidy
      obtain ⟨b, more, spelled, visible⟩ := spell_eq_cons tidy
      have read := read?_spell tidy spaced.1
      rw [spelled, List.cons_append] at read
      rw [toText_cons, spelled, List.cons_append]
      exact .token (List.forall_mem_nil _) b more visible read (ih later spaced.2)

/-- A row of tokens is read back from its text. -/
theorem ofText?_toText {tokens : List Token} (tidy : ∀ t ∈ tokens, t.Tidy)
    (spaced : Spaced tokens) : ofText? (toText tokens) = some tokens :=
  ofText?_of_row (row_toText tidy spaced)

end Token

end DuplexRpc.Json
