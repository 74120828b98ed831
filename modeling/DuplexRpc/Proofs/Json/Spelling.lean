import DuplexRpc.Proofs.Json.Grammar
import DuplexRpc.Proofs.Json.RoundTrip
import DuplexRpc.Proofs.Text

/-!
# Reading what is spelled

Every text of the language is read, however it is spelled, as a tree that says what the text
says. White space and the choice among the spellings of a string are forgotten on the way.
-/

namespace DuplexRpc.Json

open Productions

/-! ### Strings -/

namespace StringText

/-- A hexadecimal digit is read as its value. -/
theorem hexValue?_of_spells {b : UInt8} {value : Nat} (h : SpellsHexDigit b value) :
    value < 16 ∧ hexValue? b = some (UInt16.ofNat value) := by
  have all : ∀ b, ∀ value < 16, SpellsHexDigit b value →
      hexValue? b = some (UInt16.ofNat value) := by
    unfold SpellsHexDigit
    exact forall_byte (by decide +kernel)
  have small : value < 16 := by
    obtain ⟨small, -⟩ | ⟨-, small, -⟩ := h <;> omega
  exact ⟨small, all b value small h⟩

/-- A unit is read from its escape. -/
theorem exists_unit_of_spells {s : Bytes} {n : Nat} (h : SpellsUnit s n) :
    ∃ unit : UInt16, unit.toNat = n ∧ ∀ parts rest,
      readString? parts (s ++ rest) = readString? (.unit unit :: parts) rest := by
  obtain @⟨a, b, c, d, w, x, y, z, ha, hb, hc, hd⟩ := h
  obtain ⟨hw, ha⟩ := hexValue?_of_spells ha
  obtain ⟨hx, hb⟩ := hexValue?_of_spells hb
  obtain ⟨hy, hc⟩ := hexValue?_of_spells hc
  obtain ⟨hz, hd⟩ := hexValue?_of_spells hd
  have unit : hexUnit? a b c d = some (.ofNat (((w * 16 + x) * 16 + y) * 16 + z)) := by
    simp [hexUnit?, ha, hb, hc, hd]
  refine ⟨.ofNat (((w * 16 + x) * 16 + y) * 16 + z), ?_, fun parts rest => ?_⟩
  · rw [UInt16.toNat_ofNat']
    omega
  · rw [List.cons_append, readString?.eq_def]
    simp [slash_ne_quote, unit]

theorem isHigh_iff {unit : UInt16} : isHigh unit ↔ 0xD800 ≤ unit.toNat ∧ unit.toNat ≤ 0xDBFF := by
  simp [isHigh, UInt16.le_iff_toNat_le]

theorem isLow_iff {unit : UInt16} : isLow unit ↔ 0xDC00 ≤ unit.toNat ∧ unit.toNat ≤ 0xDFFF := by
  simp [isLow, UInt16.le_iff_toNat_le]

/-- No byte of a character that stands for itself looks like anything else. -/
theorem plain_of_mem {c : Char} (visible : ' '.toNat ≤ c.toNat) (quote : c ≠ '"')
    (backslash : c ≠ '\\') {b : UInt8} (h : b ∈ String.utf8EncodeChar c) :
    b ≠ '"'.toUInt8 ∧ b ≠ '\\'.toUInt8 ∧ ¬ b < 32 := by
  refine ⟨?_, ?_, fun control => ?_⟩
  · rintro rfl
    exact quote (Text.eq_of_mem_utf8EncodeChar (by decide) h)
  · rintro rfl
    exact backslash (Text.eq_of_mem_utf8EncodeChar (by decide) h)
  · have small : b.toNat < 32 := UInt8.lt_iff_toNat_lt.mp control
    have code : (Char.ofNat b.toNat).toNat = b.toNat := by
      rw [Char.ofNat, dif_pos (Or.inl (by omega))]
      rfl
    have same : c = Char.ofNat b.toNat := by
      refine Text.eq_of_mem_utf8EncodeChar (by omega) ?_
      rwa [code, UInt8.ofNat_toNat]
    rw [same, code] at visible
    exact absurd visible (Nat.not_le.mpr small)

theorem readString?_plain {bytes : Bytes}
    (plain : ∀ b ∈ bytes, b ≠ '"'.toUInt8 ∧ b ≠ '\\'.toUInt8 ∧ ¬ b < 32)
    (parts : List StringPart) (rest : Bytes) :
    readString? parts (bytes ++ rest) =
      readString? ((bytes.map StringPart.byte).reverse ++ parts) rest := by
  induction bytes generalizing parts with
  | nil => rfl
  | cons b bytes ih =>
      obtain ⟨⟨quote, backslash, visible⟩, later⟩ := List.forall_mem_cons.mp plain
      rw [List.cons_append, readString?.eq_def]
      simp only [quote, backslash, visible, if_false, ih later, List.map_cons, List.reverse_cons,
        List.append_assoc, List.singleton_append]

theorem bytes?_map_byte (bytes done : Bytes) (later : List StringPart) :
    bytes? done (bytes.map StringPart.byte ++ later) = bytes? (bytes.reverse ++ done) later := by
  induction bytes generalizing done with
  | nil => rfl
  | cons b bytes ih =>
      rw [List.map_cons, List.cons_append, bytes?, ih, List.reverse_cons, List.append_assoc,
        List.singleton_append]

/-- The letters of the escapes and what they stand for. -/
theorem escaped?_of_mem_letters {letter c : Char} (h : (letter, c) ∈ letters) :
    letter.toUInt8 ≠ 'u'.toUInt8 ∧ escaped? letter.toUInt8 = some (UInt8.ofNat c.toNat) ∧
      String.utf8EncodeChar c = [UInt8.ofNat c.toNat] := by
  have all : ∀ pair ∈ letters, pair.1.toUInt8 ≠ 'u'.toUInt8 ∧
      escaped? pair.1.toUInt8 = some (UInt8.ofNat pair.2.toNat) ∧
      String.utf8EncodeChar pair.2 = [UInt8.ofNat pair.2.toNat] := by decide
  exact all (letter, c) h

/-- A character of a string is read as parts that stand for it. -/
theorem exists_parts_of_spellsChar {s : Bytes} {c : Char} (h : SpellsChar s c) :
    ∃ read : List StringPart,
      (∀ parts rest, readString? parts (s ++ rest) = readString? (read.reverse ++ parts) rest) ∧
      ∀ done later, bytes? done (read ++ later) =
        bytes? ((String.utf8EncodeChar c).reverse ++ done) later := by
  cases h with
  | plain visible quote backslash =>
      exact ⟨_, readString?_plain fun b => plain_of_mem visible quote backslash, bytes?_map_byte _⟩
  | @letter letter _ h =>
      obtain ⟨notUnit, meant, encoded⟩ := escaped?_of_mem_letters h
      refine ⟨[.byte (UInt8.ofNat c.toNat)], fun parts rest => ?_, fun done later => ?_⟩
      · rw [List.cons_append, readString?.eq_def]
        simp [slash_ne_quote, notUnit, meant]
      · rw [encoded]
        exact bytes?_map_byte [UInt8.ofNat c.toNat] done later
  | unit h single =>
      obtain ⟨unit, rfl, read⟩ := exists_unit_of_spells h
      refine ⟨[.unit unit], read, fun done later => ?_⟩
      have notHigh : isHigh unit = false := by
        rw [Bool.eq_false_iff, Ne, isHigh_iff]
        omega
      have notLow : isLow unit = false := by
        rw [Bool.eq_false_iff, Ne, isLow_iff]
        omega
      rw [List.singleton_append, bytes?.eq_def]
      simp only [notHigh, notLow, Bool.false_eq_true, if_false]
  | @pair s t high low hs ht first second =>
      obtain ⟨high, rfl, readHigh⟩ := exists_unit_of_spells hs
      obtain ⟨low, rfl, readLow⟩ := exists_unit_of_spells ht
      refine ⟨[.unit high, .unit low], fun parts rest => ?_, fun done later => ?_⟩
      · rw [List.append_assoc, readHigh, readLow]
        rfl
      · rw [List.cons_append, List.singleton_append, bytes?.eq_def]
        simp only [isHigh_iff.mpr first, isLow_iff.mpr second, if_true, paired]

/-- A string is read as parts that stand for it. -/
theorem exists_parts_of_spells {s : Bytes} {text : String} (h : SpellsString s text) :
    ∃ parts body, s = '"'.toUInt8 :: body ∧ decode? parts = some text ∧
      ∀ rest, readString? [] (body ++ rest) = some (parts, rest) := by
  obtain @⟨s, cs, h⟩ := h
  have chars : ∃ read : List StringPart,
      (∀ parts rest, readString? parts (s ++ rest) = readString? (read.reverse ++ parts) rest) ∧
      ∀ done later, bytes? done (read ++ later) =
        bytes? ((cs.flatMap String.utf8EncodeChar).reverse ++ done) later := by
    induction h with
    | nil => exact ⟨[], fun _ _ => rfl, fun _ _ => rfl⟩
    | cons h hr ih =>
        obtain ⟨first, reads, means⟩ := exists_parts_of_spellsChar h
        obtain ⟨later, readLater, meanLater⟩ := ih
        refine ⟨first ++ later, fun parts rest => ?_, fun done more => ?_⟩
        · rw [List.append_assoc, reads, readLater]
          simp
        · rw [List.append_assoc, means, meanLater]
          simp
  obtain ⟨read, reads, means⟩ := chars
  refine ⟨read, s ++ ['"'.toUInt8], rfl, ?_, fun rest => ?_⟩
  · have bytes := means [] []
    rw [List.append_nil] at bytes
    rw [decode?, bytes, bytes?]
    simp [← Text.utf8_ofList]
  · rw [List.append_assoc, reads, List.singleton_append, readString?.eq_def]
    simp

end StringText

/-! ### Rows of tokens -/

namespace Token

/-- Whether a text is read as the given tokens wherever it stands, with something behind it that
cannot continue a number. -/
def ReadAs (s : Bytes) (read : List Token) : Prop :=
  ∀ {rest : Bytes} {tokens : List Token}, EndsNumber rest → Row rest tokens →
    Row (s ++ rest) (read ++ tokens)

/-- White space in front of a row of tokens is skipped. -/
theorem Row.ws {gap s : Bytes} {tokens : List Token} (h : Ws gap) (row : Row s tokens) :
    Row (gap ++ s) tokens := by
  cases row with
  | done hs => exact .done (List.forall_mem_append.mpr ⟨h, hs⟩)
  | token hs first more visible read hr =>
      rw [← List.append_assoc]
      exact .token (List.forall_mem_append.mpr ⟨h, hs⟩) first more visible read hr

theorem endsNumber_ws {gap rest : Bytes} (h : Ws gap) (ends : EndsNumber rest) :
    EndsNumber (gap ++ rest) := by
  cases gap with
  | nil => exact ends
  | cons b gap =>
      have all : ∀ b, isSpace b → EndsNumber [b] := forall_byte (by decide +kernel)
      exact all b (h b List.mem_cons_self)

/-- A mark is read as its token, and nothing can continue a number over it. -/
theorem Row.mark {rest : Bytes} {tokens : List Token} (b : UInt8) (t : Token)
    (h : punctuation? b = some t) (row : Row rest tokens) :
    Row (b :: rest) (t :: tokens) ∧ EndsNumber (b :: rest) := by
  have all : ∀ b, (punctuation? b).isSome → isSpace b = false ∧ EndsNumber [b] :=
    forall_byte (by decide +kernel)
  obtain ⟨visible, ends⟩ := all b (by rw [h]; rfl)
  have read : read? (b :: ([] ++ rest)) = some (t, rest) := by simp [read?, h]
  exact ⟨.token (List.forall_mem_nil _) b [] visible read row, ends⟩

/-- A single token can stand anywhere where it is read. -/
theorem readAs_single {b : UInt8} {more : Bytes} {t : Token} (visible : isSpace b = false)
    (read : ∀ rest, EndsNumber rest → read? (b :: (more ++ rest)) = some (t, rest)) :
    ReadAs (b :: more) [t] := by
  intro rest tokens ends row
  exact .token (List.forall_mem_nil _) b more visible (read rest ends) row

theorem readAs_number {s : Bytes} {n : Numeral} (h : SpellsNumber s n) : ReadAs s [.number n] := by
  obtain ⟨b, more, rfl, start⟩ := exists_eq_cons_of_spellsNumber h
  exact readAs_single (numberStart start).2.2.1 fun rest ends => read?_of_spellsNumber h ends

theorem exists_readAs_string {s : Bytes} {text : String} (h : SpellsString s text) :
    ∃ parts, StringText.decode? parts = some text ∧ ReadAs s [.string parts] := by
  obtain ⟨parts, body, rfl, means, read⟩ := StringText.exists_parts_of_spells h
  have quote : punctuation? '"'.toUInt8 = none := by decide
  exact ⟨parts, means, readAs_single rfl fun rest _ => by simp [read?, quote, read]⟩

end Token

/-! ### Trees -/

mutual

/-- What a tree says. Its strings are decoded. -/
inductive Tree.Says : Tree → Document → Prop
  | null : Says .null .null
  | bool (value : Bool) : Says (.bool value) (.bool value)
  | number (value : Numeral) : Says (.number value) (.number value)
  | string {parts : List StringPart} {text : String} (h : StringText.decode? parts = some text) :
      Says (.string parts) (.string text)
  | array {items : List Tree} {documents : List Document} (h : SaysItems items documents) :
      Says (.array items) (.array documents)
  | object {members : List (List StringPart × Tree)} {documents : List (String × Document)}
      (h : SaysMembers members documents) : Says (.object members) (.object documents)

inductive Tree.SaysItems : List Tree → List Document → Prop
  | nil : SaysItems [] []
  | cons {item : Tree} {d : Document} {items : List Tree} {documents : List Document}
      (h : Says item d) (hr : SaysItems items documents) :
      SaysItems (item :: items) (d :: documents)

inductive Tree.SaysMembers : List (List StringPart × Tree) → List (String × Document) → Prop
  | nil : SaysMembers [] []
  | cons {parts : List StringPart} {name : String} {value : Tree} {d : Document}
      {members : List (List StringPart × Tree)} {documents : List (String × Document)}
      (hn : StringText.decode? parts = some name) (h : Says value d)
      (hr : SaysMembers members documents) :
      SaysMembers ((parts, value) :: members) ((name, d) :: documents)

end

namespace Tree

open Token

mutual

theorem exists_tree_of_spellsValue : ∀ {s : Bytes} {d : Document}, SpellsValue s d →
    ∃ t : Tree, t.Says d ∧ ReadAs s t.tokens
  | _, _, .null => ⟨.null, .null, readAs_single rfl fun _ _ => rfl⟩
  | _, _, .true => ⟨.bool true, .bool true, readAs_single rfl fun _ _ => rfl⟩
  | _, _, .false => ⟨.bool false, .bool false, readAs_single rfl fun _ _ => rfl⟩
  | _, _, .number h => ⟨.number _, .number _, readAs_number h⟩
  | _, _, .string h => by
      obtain ⟨parts, means, read⟩ := exists_readAs_string h
      exact ⟨.string parts, .string means, read⟩
  | _, _, .array h => by
      obtain ⟨items, said, read⟩ := exists_trees_of_spellsItems h
      refine ⟨.array items, .array said, fun _ row => ?_⟩
      rw [List.cons_append, List.cons_append, List.append_assoc]
      exact (Row.mark '['.toUInt8 .beginArray rfl (read row)).1
  | _, _, .object h => by
      obtain ⟨members, said, read⟩ := exists_trees_of_spellsMembers h
      refine ⟨.object members, .object said, fun _ row => ?_⟩
      rw [List.cons_append, List.cons_append, List.append_assoc]
      exact (Row.mark '{'.toUInt8 .beginObject rfl (read row)).1

theorem exists_tree_of_spellsText : ∀ {s : Bytes} {d : Document}, SpellsText s d →
    ∃ t : Tree, t.Says d ∧ ReadAs s t.tokens
  | _, _, .intro hb h ha => by
      obtain ⟨t, said, read⟩ := exists_tree_of_spellsValue h
      refine ⟨t, said, fun ends row => ?_⟩
      rw [List.append_assoc, List.append_assoc]
      exact (read (endsNumber_ws ha ends) (row.ws ha)).ws hb

theorem exists_trees_of_spellsItems : ∀ {s : Bytes} {documents : List Document},
    SpellsItems s documents → ∃ items, SaysItems items documents ∧
      ∀ {rest tokens}, Row rest tokens →
        Row (s ++ ([']'.toUInt8] ++ rest)) (itemTokens items ++ tokens)
  | _, _, .none h => ⟨[], .nil, fun row => (Row.mark _ .endArray rfl row).1.ws h⟩
  | _, _, .last h => by
      obtain ⟨t, said, read⟩ := exists_tree_of_spellsText h
      refine ⟨[t], .cons said .nil, fun row => ?_⟩
      obtain ⟨behind, ends⟩ := Row.mark ']'.toUInt8 .endArray rfl row
      rw [itemTokens, moreItemTokens, List.append_assoc]
      exact read ends behind
  | _, _, .more h hr => by
      obtain ⟨t, said, read⟩ := exists_tree_of_spellsText h
      obtain ⟨later, saidLater, readLater⟩ := exists_trees_of_spellsItems hr
      obtain _ | @⟨next, _, items, _, saidNext, saidLater⟩ := saidLater
      refine ⟨t :: next :: items, .cons said (.cons saidNext saidLater), fun row => ?_⟩
      obtain ⟨behind, ends⟩ := Row.mark ','.toUInt8 .valueSeparator rfl (readLater row)
      have tokens : itemTokens (t :: next :: items) =
          t.tokens ++ .valueSeparator :: itemTokens (next :: items) := rfl
      rw [tokens, List.append_assoc, List.append_assoc]
      exact read ends behind

theorem exists_tree_of_spellsMember : ∀ {s : Bytes} {member : String × Document},
    SpellsMember s member → ∃ (parts : List StringPart) (value : Tree),
      StringText.decode? parts = some member.1 ∧ value.Says member.2 ∧
        ReadAs s (.string parts :: .nameSeparator :: value.tokens)
  | _, _, .intro hb hn ha h => by
      obtain ⟨parts, means, readName⟩ := exists_readAs_string hn
      obtain ⟨value, said, read⟩ := exists_tree_of_spellsText h
      refine ⟨parts, value, means, said, fun ends row => ?_⟩
      obtain ⟨behind, colon⟩ := Row.mark ':'.toUInt8 .nameSeparator rfl (read ends row)
      rw [List.append_assoc, List.append_assoc, List.append_assoc]
      exact (readName (endsNumber_ws ha colon) (behind.ws ha)).ws hb

theorem exists_trees_of_spellsMembers : ∀ {s : Bytes} {documents : List (String × Document)},
    SpellsMembers s documents → ∃ members, SaysMembers members documents ∧
      ∀ {rest tokens}, Row rest tokens →
        Row (s ++ (['}'.toUInt8] ++ rest)) (memberTokens members ++ tokens)
  | _, _, .none h => ⟨[], .nil, fun row => (Row.mark _ .endObject rfl row).1.ws h⟩
  | _, _, .last h => by
      obtain ⟨parts, value, means, said, read⟩ := exists_tree_of_spellsMember h
      refine ⟨[(parts, value)], .cons means said .nil, fun row => ?_⟩
      obtain ⟨behind, ends⟩ := Row.mark '}'.toUInt8 .endObject rfl row
      have tokens : memberTokens [(parts, value)] =
          (.string parts :: .nameSeparator :: value.tokens) ++ [.endObject] := rfl
      rw [tokens, List.append_assoc]
      exact read ends behind
  | _, _, .more h hr => by
      obtain ⟨parts, value, means, said, read⟩ := exists_tree_of_spellsMember h
      obtain ⟨later, saidLater, readLater⟩ := exists_trees_of_spellsMembers hr
      obtain _ | @⟨nextParts, _, next, _, members, _, meansNext, saidNext, saidLater⟩ := saidLater
      refine ⟨(parts, value) :: (nextParts, next) :: members,
        .cons means said (.cons meansNext saidNext saidLater), fun row => ?_⟩
      obtain ⟨behind, ends⟩ := Row.mark ','.toUInt8 .valueSeparator rfl (readLater row)
      have tokens : memberTokens ((parts, value) :: (nextParts, next) :: members) =
          (.string parts :: .nameSeparator :: value.tokens) ++
            .valueSeparator :: memberTokens ((nextParts, next) :: members) := rfl
      rw [tokens, List.append_assoc, List.append_assoc]
      exact read ends behind

end

/-- Every text of the language is read as a tree that says what the text says. -/
theorem exists_tree_of_spells {s : Bytes} {d : Document} (h : SpellsText s d) :
    ∃ t : Tree, ofText? s = some t ∧ t.Says d := by
  obtain ⟨t, said, read⟩ := exists_tree_of_spellsText h
  have row : Row s t.tokens := by
    have alone := @read [] [] trivial (.done (List.forall_mem_nil _))
    rwa [List.append_nil, List.append_nil] at alone
  refine ⟨t, ?_, said⟩
  rw [ofText?, Token.ofText?_of_row row]
  exact ofTokens?_tokens t

end Tree

end DuplexRpc.Json
