import DuplexRpc.Proofs.Definition.Readers

/-!
# First words

The first word of a line ends at a space or a tab, and it tells by which rule the line is judged.
It is looked for before the line is trimmed. Other white space behind a line of one word is
therefore a part of the word.
-/

namespace DuplexRpc

open Grammar Statement

namespace Statement

theorem not_isGap_iff {c : Char} : (!isGap c) = true ↔ ¬ (c = ' ' ∨ c = '\t') := by
  rw [Bool.not_eq_true', Bool.eq_false_iff, ne_eq, isGap_iff]

/-- There is no separator in a text without spaces and tabs. -/
theorem forall_not_isGap_iff {s : List Char} :
    (∀ c ∈ s, !isGap c) ↔ ' ' ∉ s ∧ '\t' ∉ s := by
  constructor
  · intro inside
    exact ⟨fun present => not_isGap_iff.mp (inside _ present) (.inl rfl),
      fun present => not_isGap_iff.mp (inside _ present) (.inr rfl)⟩
  · rintro ⟨noSpace, noTab⟩ c present
    rw [not_isGap_iff]
    rintro (rfl | rfl)
    · exact noSpace present
    · exact noTab present

end Statement

namespace Grammar

/-- The words that statements begin with. -/
def keywords : List String := ["server", "client", "type"]

/-- What stands before the first space or tab of a line, or all of it if there is none. -/
def FirstWord (line : List Char) (word : String) : Prop :=
  ∃ rest, line = word.toList ++ rest ∧ ' ' ∉ word.toList ∧ '\t' ∉ word.toList ∧
    ∀ c ∈ rest.head?, c = ' ' ∨ c = '\t'

theorem firstWord_iff {line : List Char} {word : String} :
    FirstWord line word ↔ String.ofList (line.takeWhile (!isGap ·)) = word := by
  have ends : ∀ {rest : List Char},
      Stops (!isGap ·) rest ↔ ∀ c ∈ rest.head?, c = ' ' ∨ c = '\t' := by
    intro rest
    refine forall_congr' fun c => imp_congr_right fun _ => ?_
    rw [Bool.not_eq_false', isGap_iff]
  constructor
  · rintro ⟨rest, rfl, noSpace, noTab, stops⟩
    have inside := forall_not_isGap_iff.mpr ⟨noSpace, noTab⟩
    rw [(span_eq_iff.mpr ⟨rfl, inside, ends.mpr stops⟩).1, String.ofList_toList]
  · rintro rfl
    obtain ⟨whole, inside, stops⟩ := span_eq_iff.mp
      ⟨(rfl : line.takeWhile (!isGap ·) = _), (rfl : line.dropWhile (!isGap ·) = _)⟩
    obtain ⟨noSpace, noTab⟩ := forall_not_isGap_iff.mp inside
    rw [FirstWord, String.toList_ofList]
    exact ⟨_, whole, noSpace, noTab, ends.mp stops⟩

/-- What is put behind a line leaves its first word as it is, or it goes on with the word where the
line is no more than that. -/
theorem FirstWord.append {line blanks : List Char} {word : String}
    (first : FirstWord line word) : FirstWord (line ++ blanks) word ∨
      String.ofList line = word ∧ ∃ c ∈ blanks.head?, (c ≠ ' ' ∧ c ≠ '\t') ∧
        ∃ longer, FirstWord (line ++ blanks) longer ∧ c ∈ longer.toList := by
  obtain ⟨rest, rfl, noSpace, noTab, ends⟩ := first
  rw [List.append_assoc]
  cases rest with
  | cons d rest => exact .inl ⟨d :: rest ++ blanks, rfl, noSpace, noTab, ends⟩
  | nil =>
      cases blanks with
      | nil => exact .inl ⟨[], rfl, noSpace, noTab, nofun⟩
      | cons c blanks =>
          by_cases gap : c = ' ' ∨ c = '\t'
          · refine .inl ⟨c :: blanks, rfl, noSpace, noTab, ?_⟩
            rintro _ ⟨⟩
            exact gap
          · refine .inr ⟨?_, c, rfl, not_or.mp gap, _, firstWord_iff.mpr rfl, ?_⟩
            · rw [List.append_nil, String.ofList_toList]
            · have inside := forall_not_isGap_iff.mpr ⟨noSpace, noTab⟩
              rw [String.toList_ofList, List.nil_append, List.takeWhile_append_of_pos inside,
                List.takeWhile_cons, if_pos (not_isGap_iff.mpr gap)]
              exact List.mem_append_right _ List.mem_cons_self

end Grammar

/-! ### Kinds of line -/

namespace LineKind

variable {line blanks : List Char}

theorem not_blank_iff : ¬ line.all Text.isBlank ↔ ∃ c ∈ line, Text.isBlank c = false := by
  simp

theorem of_eq_blank_iff : of line = .blank ↔ ∀ c ∈ line, Text.isBlank c := by
  rw [← List.all_eq_true]
  constructor
  · intro kind
    by_contra visible
    rw [of, if_neg visible] at kind
    dsimp only at kind
    split at kind
    · cases kind
    · split at kind <;> cases kind
  · intro blank
    rw [of, if_pos blank]

/-- The kind of a line that is not blank is told by its first word. -/
theorem of_firstWord {word : String} (visible : ∃ c ∈ line, Text.isBlank c = false)
    (first : FirstWord line word) :
    of line = if word = "server" ∨ word = "client" then .procedure
      else if word = "type" then .type else .unknown := by
  rw [of, if_neg (not_blank_iff.mpr visible), firstWord_iff.mp first]
  rfl

/-- A line whose first word is not blank is not blank. -/
theorem visible_of_firstWord {word : String} (first : FirstWord line word)
    (seen : ∃ c ∈ word.toList, Text.isBlank c = false) : ∃ c ∈ line, Text.isBlank c = false := by
  obtain ⟨rest, rfl, -⟩ := first
  obtain ⟨c, present, notBlank⟩ := seen
  exact ⟨c, List.mem_append_left rest present, notBlank⟩

theorem of_procedure {side : Side} (first : FirstWord line side.word) : of line = .procedure := by
  have seen : ∃ c ∈ side.word.toList, Text.isBlank c = false := by
    cases side <;> exact ⟨'e', by decide, rfl⟩
  rw [of_firstWord (visible_of_firstWord first seen) first]
  cases side <;> rfl

theorem of_type (first : FirstWord line "type") : of line = .type := by
  rw [of_firstWord (visible_of_firstWord first ⟨'t', by decide, rfl⟩) first]
  rfl

theorem of_unknown {word : String} (visible : ∃ c ∈ line, Text.isBlank c = false)
    (first : FirstWord line word) (other : word ∉ keywords) : of line = .unknown := by
  simp only [keywords, List.mem_cons, List.not_mem_nil, or_false, not_or] at other
  obtain ⟨notServer, notClient, notType⟩ := other
  rw [of_firstWord visible first, if_neg (not_or.mpr ⟨notServer, notClient⟩), if_neg notType]

/-- A line is blank, or its kind is that of its first word. -/
theorem of_cases (line : List Char) :
    (of line = .blank ∧ ∀ c ∈ line, Text.isBlank c) ∨
      (of line = .procedure ∧ ∃ side : Side, FirstWord line side.word) ∨
        (of line = .type ∧ FirstWord line "type") ∨
          (of line = .unknown ∧ (∃ c ∈ line, Text.isBlank c = false) ∧
            ∃ word, FirstWord line word ∧ word ∉ keywords) := by
  have first := firstWord_iff.mpr (rfl : String.ofList (line.takeWhile (!isGap ·)) = _)
  generalize String.ofList (line.takeWhile (!isGap ·)) = word at first
  by_cases blank : ∀ c ∈ line, Text.isBlank c
  · exact .inl ⟨of_eq_blank_iff.mpr blank, blank⟩
  have visible : ∃ c ∈ line, Text.isBlank c = false := by simpa using blank
  by_cases isServer : word = "server"
  · subst isServer
    exact .inr (.inl ⟨@of_procedure line .server first, .server, first⟩)
  by_cases isClient : word = "client"
  · subst isClient
    exact .inr (.inl ⟨@of_procedure line .client first, .client, first⟩)
  by_cases isType : word = "type"
  · subst isType
    exact .inr (.inr (.inl ⟨of_type first, first⟩))
  have other : word ∉ keywords := by simp [keywords, isServer, isClient, isType]
  exact .inr (.inr (.inr ⟨of_unknown visible first other, visible, word, first, other⟩))

/-- No statement begins with a word that has white space in it. -/
theorem notMem_keywords {word : String} {c : Char} (blank : Text.isBlank c)
    (present : c ∈ word.toList) : word ∉ keywords := by
  intro listed
  simp only [keywords, List.mem_cons, List.not_mem_nil, or_false] at listed
  have visible : ∀ d ∈ word.toList, !Text.isBlank d := by
    obtain rfl | rfl | rfl := listed <;> exact List.all_eq_true.mp rfl
  have seen := visible c present
  rw [blank] at seen
  cases seen

/-- White space behind a line does not change its kind, unless it hides its first word. -/
theorem of_append_blank (blank : ∀ c ∈ blanks, Text.isBlank c)
    (seen : String.ofList line ∈ keywords →
      ∀ c ∈ blanks.head?, ¬ (c ≠ ' ' ∧ c ≠ '\t')) : of (line ++ blanks) = of line := by
  obtain ⟨isBlank, whole⟩ | ⟨isProcedure, side, word⟩ | ⟨isType, word⟩ |
    ⟨isUnknown, ⟨c, present, notBlank⟩, word, first, other⟩ := of_cases line
  · rw [isBlank, of_eq_blank_iff]
    exact List.forall_mem_append.mpr ⟨whole, blank⟩
  · rw [isProcedure]
    obtain same | ⟨whole, c, next, hidden, -⟩ := word.append
    · exact of_procedure same
    · have listed : String.ofList line ∈ keywords := by
        rw [whole]
        cases side <;> decide
      exact absurd hidden (seen listed c next)
  · rw [isType]
    obtain same | ⟨whole, c, next, hidden, -⟩ := word.append
    · exact of_type same
    · exact absurd hidden (seen (by simp [keywords, whole]) c next)
  · rw [isUnknown]
    have visible : ∃ c ∈ line ++ blanks, Text.isBlank c = false :=
      ⟨c, List.mem_append_left blanks present, notBlank⟩
    obtain same | ⟨-, d, next, -, longer, first, inside⟩ := first.append
    · exact of_unknown visible same other
    · exact of_unknown visible first (notMem_keywords (blank d (List.mem_of_mem_head? next)) inside)

end LineKind

end DuplexRpc
