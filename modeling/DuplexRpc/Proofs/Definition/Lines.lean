import DuplexRpc.Proofs.Definition.Readers
import DuplexRpc.Proofs.Text

/-!
# Lines of a text

A text that is handed out as bytes comes back as its lines. No byte of a character
outside ASCII is a newline or a carriage return, so cutting the bytes at newlines cuts the
text there, and what lies between two cuts is the encoding of what lies between them.
-/

namespace DuplexRpc

theorem Text.newline_notMem {s : List Char} (h : '\n' ∉ s) :
    Source.newline ∉ s.flatMap String.utf8EncodeChar := by
  intro found
  obtain ⟨c, hc, byte⟩ := List.mem_flatMap.mp found
  obtain rfl := eq_of_mem_utf8EncodeChar (d := '\n') (by decide) byte
  exact h hc

/-! ### Cutting -/

namespace Grammar

def dropReturn (line : List Char) : List Char :=
  if line.getLast? = some '\r' then line.dropLast else line

theorem cutLines_of_notMem {s : List Char} (h : '\n' ∉ s) :
    cutLines s = if s = [] then [] else [s] := by
  induction s with
  | nil => rfl
  | cons c rest ih =>
      obtain ⟨other, absent⟩ := not_or.mp (mt List.mem_cons.mpr h)
      have noReturn : ¬ (c = '\r' ∧ rest.head? = some '\n') := by
        rintro ⟨-, next⟩
        exact absent (List.mem_of_mem_head? next)
      rw [cutLines, if_neg (Ne.symm other), if_neg noReturn, ih absent]
      cases rest <;> rfl

theorem cutLines_append {line : List Char} (h : '\n' ∉ line) (rest : List Char) :
    cutLines (line ++ '\n' :: rest) = dropReturn line :: cutLines rest := by
  induction line with
  | nil => rfl
  | cons c line ih =>
      obtain ⟨other, absent⟩ := not_or.mp (mt List.mem_cons.mpr h)
      rw [List.cons_append, cutLines, if_neg (Ne.symm other), ih absent]
      cases line with
      | nil =>
          by_cases isReturn : c = '\r'
          · rw [if_pos ⟨isReturn, rfl⟩, isReturn]
            rfl
          · rw [if_neg fun both => isReturn both.1]
            simp [dropReturn, isReturn]
      | cons d line =>
          have noReturn : ¬ (c = '\r' ∧ (d :: line ++ '\n' :: rest).head? = some '\n') := by
            rintro ⟨-, next⟩
            exact absent (Option.some.inj next ▸ List.mem_cons_self)
          rw [if_neg noReturn]
          by_cases isReturn : (d :: line).getLast? = some '\r'
          · simp [dropReturn, isReturn]
          · simp [dropReturn, isReturn]

end Grammar

/-! ### Items -/

namespace Source

/-- Dropping the return of a line and encoding it can be done in either order. -/
theorem dropReturn_utf8 (line : List Char) :
    dropReturn (line.flatMap String.utf8EncodeChar) =
      (Grammar.dropReturn line).flatMap String.utf8EncodeChar := by
  obtain rfl | ⟨line, c, rfl⟩ := List.eq_nil_or_concat line
  · rfl
  rw [List.concat_eq_append]
  by_cases isReturn : c = '\r'
  · subst isReturn
    have byte : String.utf8EncodeChar '\r' = [carriageReturn] := rfl
    simp [dropReturn, Grammar.dropReturn, byte]
  · have noReturn :
        ((line ++ [c]).flatMap String.utf8EncodeChar).getLast? ≠ some carriageReturn := by
      intro last
      rw [List.flatMap_append, List.flatMap_singleton, List.getLast?_append] at last
      cases bytes : (String.utf8EncodeChar c).getLast? with
      | none => exact absurd (List.getLast?_eq_none_iff.mp bytes) String.utf8EncodeChar_ne_nil
      | some b =>
          rw [bytes] at last
          obtain rfl := Option.some.inj last
          have byte := List.mem_of_getLast? bytes
          exact isReturn (Text.eq_of_mem_utf8EncodeChar (d := '\r') (by decide) byte)
    rw [dropReturn, if_neg noReturn, Grammar.dropReturn, if_neg (by simp [isReturn])]

theorem item_utf8 (line : List Char) :
    item (line.flatMap String.utf8EncodeChar) = .line (String.ofList line) := by
  rw [item, ← Text.utf8_ofList, Text.ofUtf8?_utf8]

theorem cut_of_notMem {chunk : Bytes} (h : newline ∉ chunk) : cut chunk = (chunk, none) := by
  have inside : ∀ b ∈ chunk, b != newline := by
    intro b hb
    exact bne_iff_ne.mpr fun same => h (same ▸ hb)
  obtain ⟨taken, left⟩ := span_eq_iff.mpr ⟨(List.append_nil chunk).symm, inside, Stops.nil⟩
  simp only [cut, taken, left]

theorem cut_append {before : Bytes} (h : newline ∉ before) (after : Bytes) :
    cut (before ++ newline :: after) = (before, some after) := by
  have inside : ∀ b ∈ before, b != newline := by
    intro b hb
    exact bne_iff_ne.mpr fun same => h (same ▸ hb)
  have stops : Stops (· != newline) (newline :: after) := Stops.cons rfl after
  obtain ⟨taken, left⟩ := span_eq_iff.mpr ⟨rfl, inside, stops⟩
  simp only [cut, taken, left]

theorem next_ofBytes_append {before : Bytes} (h : newline ∉ before) (after : Bytes) :
    next (ofBytes (before ++ newline :: after)) =
      (some (item (dropReturn before)), ofBytes after) := by
  rw [next, ofBytes, takeItem, cut_append h]
  rfl

theorem next_ofBytes_of_notMem {bytes : Bytes} (h : newline ∉ bytes) :
    next (ofBytes bytes) = (if bytes.isEmpty then none else some (item bytes), []) := by
  rw [next, ofBytes, takeItem, cut_of_notMem h]
  rfl

theorem items_of_next_none {source rest : Source} (h : source.next = (none, rest)) :
    items source = [] := by
  rw [items]
  split
  next => rfl
  next found => rw [h] at found; cases found

theorem items_of_next_some {source rest : Source} {i : Item} (h : source.next = (some i, rest)) :
    items source = i :: items rest := by
  rw [items]
  split
  next found => rw [h] at found; cases found
  next found =>
    rw [h] at found
    obtain ⟨same, rfl⟩ := Prod.mk.inj found
    obtain rfl := Option.some.inj same
    rfl

/-- The bytes of a text are read as the lines of the text. -/
theorem items_ofBytes_utf8 (s : List Char) :
    items (ofBytes (s.flatMap String.utf8EncodeChar)) =
      (Grammar.cutLines s).map fun line => .line (String.ofList line) := by
  induction length : s.length using Nat.strongRecOn generalizing s with
  | ind n ih =>
      by_cases found : '\n' ∈ s
      · obtain ⟨line, rest, rfl, absent⟩ := List.eq_append_cons_of_mem found
        have shorter : rest.length < n := by
          rw [← length, List.length_append, List.length_cons]
          omega
        have bytes : (line ++ '\n' :: rest).flatMap String.utf8EncodeChar =
            line.flatMap String.utf8EncodeChar ++
              newline :: rest.flatMap String.utf8EncodeChar := by
          rw [List.flatMap_append, List.flatMap_cons]
          rfl
        rw [bytes, items_of_next_some (next_ofBytes_append (Text.newline_notMem absent) _),
          ih _ shorter rest rfl, dropReturn_utf8, item_utf8, Grammar.cutLines_append absent,
          List.map_cons]
      · have read := next_ofBytes_of_notMem (Text.newline_notMem found)
        rw [Grammar.cutLines_of_notMem found]
        cases s with
        | nil => exact items_of_next_none read
        | cons c s =>
            have visible : ¬ ((c :: s).flatMap String.utf8EncodeChar).isEmpty := by
              simp [String.utf8EncodeChar_ne_nil]
            have rest : items [] = [] := items_of_next_none rfl
            rw [if_neg visible] at read
            rw [items_of_next_some read, rest, item_utf8, if_neg (List.cons_ne_nil c s),
              List.map_singleton]

end Source

/-- A text is parsed by its lines. -/
theorem Service.parseText_ofList (s : List Char) : parseText (String.ofList s) =
    ofItems ((Grammar.cutLines s).map fun line => .line (String.ofList line)) := by
  rw [parseText, parse, Text.utf8_ofList, Source.items_ofBytes_utf8]

end DuplexRpc
