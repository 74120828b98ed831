import DuplexRpc.Proofs.Definition.Lines
import DuplexRpc.Proofs.Definition.Refusal
import Mathlib.Data.List.TakeWhile

/-!
# White space at the end of a line

White space at the end of a line carries no meaning, but it can hide a word. The first word of a
line is looked for before the line is trimmed, and only a space or a tab ends it. A line that is
no more than the word a statement begins with is refused with or without white space behind it; the
reason that is reported is another one when the word is hidden.
-/

namespace DuplexRpc

open Grammar Statement

namespace Grammar

/-- A line of a text, between the text before the line and the text from the end of the line on. -/
structure LineAt (before line rest : List Char) : Prop where
  start : ∀ c ∈ before.getLast?, c = '\n'
  inside : '\n' ∉ line
  /-- The line ends with the text or at a newline. A carriage return directly before a newline
  belongs to the end of the line. -/
  stop : (rest = [] ∧ line ≠ []) ∨ (∃ later, rest = '\n' :: later ∧ line.getLast? ≠ some '\r') ∨
    ∃ later, rest = '\r' :: '\n' :: later

/-- What is read of a text that ends a line. -/
def readAtEnd (rest blanks : List Char) : List Char :=
  if rest.head? = some '\n' then dropReturn blanks else blanks

/-- White space behind a line that is no more than the first word of a statement, and neither a
space nor a tab is next to the word. -/
structure Hides (line rest blanks : List Char) : Prop where
  word : String.ofList line ∈ keywords
  next : ∃ c ∈ (readAtEnd rest blanks).head?, c ≠ ' ' ∧ c ≠ '\t'

/-! ### Lines of a text -/

theorem cutLines_append_of_ends {before : List Char} (h : ∀ c ∈ before.getLast?, c = '\n')
    (rest : List Char) : cutLines (before ++ rest) = cutLines before ++ cutLines rest := by
  induction length : before.length using Nat.strongRecOn generalizing before with
  | ind n ih =>
      by_cases found : '\n' ∈ before
      · obtain ⟨line, later, rfl, absent⟩ := List.eq_append_cons_of_mem found
        have shorter : later.length < n := by
          rw [← length, List.length_append, List.length_cons]
          omega
        have ends : ∀ c ∈ later.getLast?, c = '\n' := by
          intro c last
          apply h
          rw [Option.mem_def] at last
          simp [List.getLast?_append, List.getLast?_cons, last]
        rw [List.append_assoc, List.cons_append, cutLines_append absent, cutLines_append absent,
          ih _ shorter ends rfl, List.cons_append]
      · obtain rfl : before = [] := by
          by_contra nonempty
          have last := List.getLast?_eq_some_getLast nonempty
          exact found (h _ last ▸ List.getLast_mem nonempty)
        rfl

theorem dropReturn_append {line blanks : List Char} (h : line.getLast? ≠ some '\r') :
    dropReturn (line ++ blanks) = line ++ dropReturn blanks := by
  obtain rfl | ⟨init, c, rfl⟩ := List.eq_nil_or_concat blanks
  · simp [dropReturn, h]
  · rw [List.concat_eq_append, dropReturn, dropReturn, ← List.append_assoc, List.getLast?_concat,
      List.getLast?_concat, List.dropLast_concat, List.dropLast_concat]
    split
    · rfl
    · rw [List.append_assoc]

/-- What is put behind a line stays on that line. -/
theorem LineAt.cutLines {before line rest : List Char} (h : LineAt before line rest) :
    ∃ later, ∀ blanks, '\n' ∉ blanks → cutLines (before ++ line ++ blanks ++ rest) =
      cutLines before ++ (line ++ readAtEnd rest blanks) :: later := by
  have one : ∀ {blanks}, '\n' ∉ blanks → '\n' ∉ line ++ blanks := by
    intro blanks absent present
    obtain present | present := List.mem_append.mp present
    · exact h.inside present
    · exact absent present
  have front : ∀ blanks, Grammar.cutLines (before ++ line ++ blanks ++ rest) =
      Grammar.cutLines before ++ Grammar.cutLines (line ++ blanks ++ rest) := by
    intro blanks
    rw [List.append_assoc, List.append_assoc, cutLines_append_of_ends h.start, List.append_assoc]
  obtain ⟨rfl, nonempty⟩ | ⟨later, rfl, noReturn⟩ | ⟨later, rfl⟩ := h.stop
  · refine ⟨[], fun blanks absent => ?_⟩
    rw [front, List.append_nil, cutLines_of_notMem (one absent), if_neg (by simp [nonempty])]
    rfl
  · refine ⟨Grammar.cutLines later, fun blanks absent => ?_⟩
    rw [front, cutLines_append (one absent), dropReturn_append noReturn]
    rfl
  · refine ⟨Grammar.cutLines later, fun blanks absent => ?_⟩
    have shape : line ++ blanks ++ '\r' :: '\n' :: later =
        (line ++ blanks ++ ['\r']) ++ '\n' :: later := by simp
    have plain : '\n' ∉ line ++ blanks ++ ['\r'] := by simpa using one absent
    rw [front, shape, cutLines_append plain, dropReturn, if_pos List.getLast?_concat,
      List.dropLast_concat]
    rfl

/-- Of white space nothing else is read. -/
theorem blank_of_mem_readAtEnd {rest blanks : List Char} (blank : ∀ c ∈ blanks, Text.isBlank c) :
    ∀ c ∈ readAtEnd rest blanks, Text.isBlank c := by
  intro c present
  unfold readAtEnd dropReturn at present
  split at present
  · split at present
    · exact blank c (List.dropLast_subset blanks present)
    · exact blank c present
  · exact blank c present

end Grammar

theorem Text.trim_append_of_blank {line blanks : List Char} (blank : ∀ c ∈ blanks, isBlank c) :
    trim (line ++ blanks) = trim line := by
  unfold trim trimStart
  by_cases whole : ∀ c ∈ line, isBlank c
  · rw [List.dropWhile_append_of_pos whole, List.dropWhile_eq_nil_iff.mpr whole,
      List.dropWhile_eq_nil_iff.mpr blank]
  · have visible : (line.dropWhile isBlank).isEmpty = false := by
      rw [List.isEmpty_eq_false_iff, Ne, List.dropWhile_eq_nil_iff]
      exact whole
    rw [List.dropWhile_append, visible]
    exact trimEnd_append_of_blank blank

/-! ### Judgements -/

namespace Service

variable {s : Service} {number : Nat} {line blanks : List Char}

theorem judgeLine_append_blank (blank : ∀ c ∈ blanks, Text.isBlank c)
    (same : LineKind.of (line ++ blanks) = LineKind.of line) :
    s.judgeLine number (line ++ blanks) = s.judgeLine number line := by
  simp only [judgeLine, Procedure.ofLine, DataType.ofLine, same, Text.trimEnd_append_of_blank blank,
    Text.trim_append_of_blank blank]

/-- The fault of a line that is no more than the word a statement begins with. -/
def bareFault (line : List Char) : Fault :=
  if line = "type".toList then .malformedType "type" else .malformedProcedure (String.ofList line)

theorem keyword_cases (word : String.ofList line ∈ keywords) :
    line = "server".toList ∨ line = "client".toList ∨ line = "type".toList := by
  have spelled : ∀ {w : String}, String.ofList line = w → line = w.toList := by
    rintro _ rfl
    exact String.toList_ofList.symm
  simp only [keywords, List.mem_cons, List.not_mem_nil, or_false] at word
  exact word.imp spelled (Or.imp spelled spelled)

theorem judgeLine_bare (word : String.ofList line ∈ keywords) :
    s.judgeLine number line = .error (bareFault line) := by
  obtain rfl | rfl | rfl := keyword_cases word <;> rfl

theorem judgeLine_hidden (word : String.ofList line ∈ keywords)
    (blank : ∀ c ∈ blanks, Text.isBlank c) (next : ∃ c ∈ blanks.head?, c ≠ ' ' ∧ c ≠ '\t') :
    s.judgeLine number (line ++ blanks) = .error (.unknownStatement (String.ofList line)) := by
  obtain ⟨first, trimmed, visible⟩ : FirstWord line (String.ofList line) ∧ Text.trim line = line ∧
      ∃ c ∈ line, Text.isBlank c = false := by
    obtain rfl | rfl | rfl := keyword_cases word
    · exact ⟨⟨[], rfl, by decide, by decide, nofun⟩, rfl, 's', by decide, rfl⟩
    · exact ⟨⟨[], rfl, by decide, by decide, nofun⟩, rfl, 'c', by decide, rfl⟩
    · exact ⟨⟨[], rfl, by decide, by decide, nofun⟩, rfl, 't', by decide, rfl⟩
  obtain ⟨c, here, noSpace, noTab⟩ := next
  have hidden : LineKind.of (line ++ blanks) = .unknown := by
    obtain ⟨rest, whole, -, -, ends⟩ | ⟨-, d, there, -, longer, first, inside⟩ := first.append
    · -- the word would have to end where the white space begins
      rw [String.toList_ofList] at whole
      obtain rfl := List.append_cancel_left whole
      exact absurd (ends c here) (not_or.mpr ⟨noSpace, noTab⟩)
    · obtain ⟨v, present, seen⟩ := visible
      exact LineKind.of_unknown ⟨v, List.mem_append_left blanks present, seen⟩ first
        (LineKind.notMem_keywords (blank d (List.mem_of_mem_head? there)) inside)
  rw [judgeLine, hidden, Text.trim_append_of_blank blank, trimmed]

/-! ### Definitions -/

variable {before rest : List Char}

/-- Of a line of a definition only the judgement matters. -/
theorem ofItems_congr {pre post : List Item} {line other : List Char}
    (trimmed : Text.trimEnd other = Text.trimEnd line)
    (judged : ∀ s, ofItems pre = .ok s →
      s.judgeLine (pre.length + 1) other = s.judgeLine (pre.length + 1) line) :
    ofItems (pre ++ .line (String.ofList other) :: post) =
      ofItems (pre ++ .line (String.ofList line) :: post) := by
  cases accepted : ofItems pre with
  | ok s =>
      rw [ofItems_append accepted, ofItems_append accepted, judgeItems, judgeItems,
        String.toList_ofList, String.toList_ofList, judged s accepted]
  | error e =>
      obtain ⟨rfl, -⟩ | ⟨i, inside, -, decided⟩ := ofItems_of_error accepted
      · simp only [List.nil_append, ofItems, String.toList_ofList, trimmed]
      · have same : ∀ later, ofItems (pre ++ later) = .error e := by
          intro later
          have refused := decided (pre.drop (i + 1) ++ later)
          rwa [← List.append_assoc, List.take_append_drop] at refused
        rw [same, same]

/-- White space behind a line of a text is put behind the line that is read of it, and the other
lines stay as they are. -/
theorem exists_items_of_lineAt (at_line : LineAt before line rest) (plain : '\n' ∉ blanks) :
    ∃ pre post, parseText (String.ofList before) = ofItems pre ∧
      pre.length = (cutLines before).length ∧
      parseText (String.ofList (before ++ line ++ rest)) =
        ofItems (pre ++ .line (String.ofList line) :: post) ∧
      parseText (String.ofList (before ++ line ++ blanks ++ rest)) =
        ofItems (pre ++ .line (String.ofList (line ++ readAtEnd rest blanks)) :: post) := by
  obtain ⟨later, cut⟩ := at_line.cutLines
  have nothing : readAtEnd rest [] = [] := by
    unfold readAtEnd
    split <;> rfl
  have original := cut [] List.not_mem_nil
  rw [nothing, List.append_nil, List.append_nil] at original
  refine ⟨(cutLines before).map fun line => .line (String.ofList line),
    later.map fun line => .line (String.ofList line), parseText_ofList before, List.length_map _,
    ?_, ?_⟩
  · rw [parseText_ofList, original, List.map_append, List.map_cons]
  · rw [parseText_ofList, cut blanks plain, List.map_append, List.map_cons]

section

variable (at_line : LineAt before line rest) (blank : ∀ c ∈ blanks, Text.isBlank c)
  (plain : '\n' ∉ blanks)

include at_line blank plain

theorem parseText_of_hides (hides : Hides line rest blanks)
    (accepted : parseText (String.ofList before) = .ok s) :
    parseText (String.ofList (before ++ line ++ rest)) =
        .error ⟨(cutLines before).length + 1, bareFault line⟩ ∧
      parseText (String.ofList (before ++ line ++ blanks ++ rest)) =
        .error ⟨(cutLines before).length + 1, .unknownStatement (String.ofList line)⟩ := by
  obtain ⟨pre, post, first, number, original, padded⟩ := exists_items_of_lineAt at_line plain
  have blank_read := @blank_of_mem_readAtEnd rest blanks blank
  rw [first] at accepted
  rw [original, padded, ofItems_append accepted, ofItems_append accepted, judgeItems, judgeItems,
    String.toList_ofList, String.toList_ofList, judgeLine_bare hides.word,
    judgeLine_hidden hides.word blank_read hides.next, number]
  exact ⟨rfl, rfl⟩

theorem parseText_of_not_hides
    (seen : ¬ (Hides line rest blanks ∧ ∃ s, parseText (String.ofList before) = .ok s)) :
    parseText (String.ofList (before ++ line ++ blanks ++ rest)) =
      parseText (String.ofList (before ++ line ++ rest)) := by
  obtain ⟨pre, post, first, -, original, padded⟩ := exists_items_of_lineAt at_line plain
  have blank_read := @blank_of_mem_readAtEnd rest blanks blank
  rw [original, padded]
  refine ofItems_congr (Text.trimEnd_append_of_blank blank_read) fun s accepted => ?_
  refine judgeLine_append_blank blank_read (LineKind.of_append_blank blank_read ?_)
  intro word c next other
  exact seen ⟨⟨word, c, next, other⟩, s, first.trans accepted⟩

end

/-- What white space behind a line of a text does to the outcome of parsing it. -/
structure TrailingIgnored (before line rest blanks : List Char) : Prop where
  /-- The outcome is the same, unless the first word of a statement is hidden. -/
  same : parseText (String.ofList (before ++ line ++ blanks ++ rest)) =
      parseText (String.ofList (before ++ line ++ rest)) ↔
    ¬ (Hides line rest blanks ∧ ∃ s, parseText (String.ofList before) = .ok s)
  /-- A line with its first word hidden is refused as it is without the white space, but for
  another reason. -/
  hidden : Hides line rest blanks → ∀ s, parseText (String.ofList before) = .ok s →
    parseText (String.ofList (before ++ line ++ rest)) =
        .error ⟨(cutLines before).length + 1, bareFault line⟩ ∧
      parseText (String.ofList (before ++ line ++ blanks ++ rest)) =
        .error ⟨(cutLines before).length + 1, .unknownStatement (String.ofList line)⟩
  /-- A text is a definition with the white space when it is one without, and of the same
  service. -/
  accepted : ∀ s, parseText (String.ofList (before ++ line ++ blanks ++ rest)) = .ok s ↔
    parseText (String.ofList (before ++ line ++ rest)) = .ok s

/-- White space at the end of a line is ignored unless it hides the first word of a statement of
which there is nothing else. -/
theorem trailing_blanks_are_ignored_unless_they_hide_a_word (at_line : LineAt before line rest)
    (blank : ∀ c ∈ blanks, Text.isBlank c) (plain : '\n' ∉ blanks) :
    TrailingIgnored before line rest blanks where
  same := by
    refine ⟨?_, parseText_of_not_hides at_line blank plain⟩
    rintro unchanged ⟨hides, s, accepted⟩
    obtain ⟨bare, unknown⟩ := parseText_of_hides at_line blank plain hides accepted
    rw [bare, unknown, bareFault] at unchanged
    split at unchanged <;> cases unchanged
  hidden := fun hides _ accepted => parseText_of_hides at_line blank plain hides accepted
  accepted := by
    intro s
    by_cases hides : Hides line rest blanks ∧ ∃ s, parseText (String.ofList before) = .ok s
    · obtain ⟨hides, t, accepted⟩ := hides
      obtain ⟨bare, unknown⟩ := parseText_of_hides at_line blank plain hides accepted
      rw [bare, unknown]
      exact iff_of_false nofun nofun
    · rw [parseText_of_not_hides at_line blank plain hides]

theorem trailing_blanks_behind_a_signature :
    TrailingIgnored "name x\n".toList "server f()".toList "\r\n".toList "\u00a0\t\r".toList :=
  trailing_blanks_are_ignored_unless_they_hide_a_word
    ⟨by rintro _ ⟨⟩; rfl, by decide, .inr (.inr ⟨[], rfl⟩)⟩ (List.all_eq_true.mp rfl) (by decide)

/-- A space of another width takes a word out of sight. -/
theorem trailing_blank_hides_a_word :
    LineAt "name x\n".toList "server".toList [] ∧ Text.isBlank '\u00a0' ∧
      parseText "name x\nserver" = .error ⟨2, .malformedProcedure "server"⟩ ∧
      parseText "name x\nserver\u00a0" = .error ⟨2, .unknownStatement "server"⟩ := by
  refine ⟨⟨?_, by decide, .inl ⟨rfl, by decide⟩⟩, by decide, ?_, ?_⟩
  · rintro _ ⟨⟩
    rfl
  · decide +kernel
  · decide +kernel

end Service

end DuplexRpc
