import DuplexRpc.Proofs.Definition.Lines

/-!
# Stretches of a source

A failed read ends a stretch of bytes, and so does the end of the source. What a source
delivers is told by its stretches alone: the lines of each, and the failures between them.
Where the bytes of a stretch were cut into chunks does not show, be it inside a character or
before the newline of a line, and neither do interrupted reads.
-/

namespace DuplexRpc

/-- The bytes of a source put together, from one failed read to the next. -/
inductive Stretches
  /-- The bytes up to the end. -/
  | last (bytes : Bytes)
  /-- The bytes up to a failed read, and the stretches behind it. -/
  | failing (bytes : Bytes) (reason : String) (later : Stretches)

namespace Stretches

def prepend (front : Bytes) : Stretches → Stretches
  | last bytes => last (front ++ bytes)
  | failing bytes reason later => failing (front ++ bytes) reason later

def ofSource : Source → Stretches
  | [] => last []
  | .bytes chunk :: rest => (ofSource rest).prepend chunk
  | .interrupt :: rest => ofSource rest
  | .failure reason :: rest => failing [] reason (ofSource rest)

/-- The item for a line that a newline ends: its text without the carriage return at its end, if
there is one, or a failure if the line is not UTF-8. -/
def endedItem (line : Bytes) : Item :=
  match Source.item line with
  | .line text => .line (String.ofList (Grammar.dropReturn text.toList))
  | .failure reason => .failure reason

def endedItems (bytes : Bytes) : List Item :=
  (bytes.splitOn Source.newline).dropLast.map endedItem

/-- What stands behind the last newline of a stretch. -/
def unfinished (bytes : Bytes) : Bytes :=
  (bytes.splitOn Source.newline).getLast (List.splitOn_ne_nil _ _)

/-- The items that are read from the stretches. An unfinished line before a failed read is lost;
at the end it is a line, unless it is empty. -/
def items : Stretches → List Item
  | last bytes => endedItems bytes ++
      if unfinished bytes = [] then [] else [Source.item (unfinished bytes)]
  | failing bytes reason later => endedItems bytes ++ .failure reason :: later.items

/-! ### Bytes in front -/

@[simp] theorem prepend_nil (s : Stretches) : s.prepend [] = s := by
  cases s <;> rfl

@[simp] theorem prepend_prepend (front more : Bytes) (s : Stretches) :
    (s.prepend more).prepend front = s.prepend (front ++ more) := by
  cases s <;> simp only [prepend, List.append_assoc]

section

variable {line : Bytes} (whole : Source.newline ∉ line)

include whole

theorem endedItems_of_notMem : endedItems line = [] := by
  rw [endedItems, List.splitOn_eq_singleton whole]
  rfl

theorem unfinished_of_notMem : unfinished line = line := by
  simp only [unfinished, List.splitOn_eq_singleton whole, List.getLast_singleton]

theorem endedItems_append (after : Bytes) :
    endedItems (line ++ Source.newline :: after) = endedItem line :: endedItems after := by
  rw [endedItems, List.splitOn_append_cons_self_of_not_mem whole,
    List.dropLast_cons_of_ne_nil (List.splitOn_ne_nil _ _), List.map_cons, endedItems]

theorem unfinished_append (after : Bytes) :
    unfinished (line ++ Source.newline :: after) = unfinished after := by
  simp only [unfinished, List.splitOn_append_cons_self_of_not_mem whole]
  exact List.getLast_cons (List.splitOn_ne_nil _ _)

/-- A line in front is an item in front. -/
theorem items_prepend_append (after : Bytes) (s : Stretches) :
    (s.prepend (line ++ Source.newline :: after)).items =
      endedItem line :: (s.prepend after).items := by
  cases s with
  | last bytes =>
      simp only [prepend, items, List.append_assoc, List.cons_append, endedItems_append whole,
        unfinished_append whole]
  | failing bytes reason later =>
      simp only [prepend, items, List.append_assoc, List.cons_append, endedItems_append whole]

end

end Stretches

/-! ### Reading stretches -/

namespace Source

/-- A line is UTF-8 with the carriage return at its end if and only if it is without it. -/
theorem item_dropReturn (line : Bytes) : item (dropReturn line) = Stretches.endedItem line := by
  cases decoded : Text.ofUtf8? line with
  | some text =>
      obtain rfl := Text.ofUtf8?_eq_some_iff.mp decoded
      have bytes : Text.utf8 text = text.toList.flatMap String.utf8EncodeChar := by
        rw [← Text.utf8_ofList, String.ofList_toList]
      rw [Stretches.endedItem, bytes, dropReturn_utf8, item_utf8, item_utf8, String.ofList_toList]
  | none =>
      have undecoded : Text.ofUtf8? (dropReturn line) = none := by
        by_cases isReturn : line.getLast? = some carriageReturn
        · rw [dropReturn, if_pos isReturn, Option.eq_none_iff_forall_ne_some]
          intro text found
          have line : line = Text.utf8 (text ++ "\r") := by
            rw [Text.utf8_append, ← Text.ofUtf8?_eq_some_iff.mp found]
            exact (List.dropLast_append_getLast? _ isReturn).symm
          rw [line, Text.ofUtf8?_utf8] at decoded
          cases decoded
        · rw [dropReturn, if_neg isReturn, decoded]
      rw [Stretches.endedItem, item, item, undecoded, decoded]

/-- The end of a source stays its end. -/
theorem eq_nil_of_takeItem_none {read : Bytes} {source rest : Source}
    (h : takeItem read source = (none, rest)) : rest = [] := by
  induction source generalizing read with
  | nil => exact (Prod.mk.inj h).2.symm
  | cons piece later ih =>
      cases piece with
      | interrupt => exact ih h
      | failure reason => cases h
      | bytes chunk =>
          rw [takeItem] at h
          split at h
          next => cases h
          next => exact ih h

/-- What is taken is the first item of the stretches, with the bytes of its line that have been
read already in front of them. -/
theorem items_prepend_of_takeItem {read : Bytes} (whole : newline ∉ read) {source rest : Source}
    {found : Option Item} (h : takeItem read source = (found, rest)) :
    ((Stretches.ofSource source).prepend read).items =
      found.toList ++ (Stretches.ofSource rest).items := by
  induction source generalizing read with
  | nil =>
      obtain ⟨rfl, rfl⟩ := Prod.mk.inj h
      rw [Stretches.ofSource, Stretches.prepend, List.append_nil, Stretches.items,
        Stretches.endedItems_of_notMem whole, Stretches.unfinished_of_notMem whole]
      cases read <;> rfl
  | cons piece later ih =>
      cases piece with
      | interrupt => exact ih whole h
      | failure reason =>
          obtain ⟨rfl, rfl⟩ := Prod.mk.inj h
          rw [Stretches.ofSource, Stretches.prepend, List.append_nil, Stretches.items,
            Stretches.endedItems_of_notMem whole]
          rfl
      | bytes chunk =>
          rw [Stretches.ofSource, Stretches.prepend_prepend]
          by_cases ends : newline ∈ chunk
          · obtain ⟨before, after, rfl, absent⟩ := List.eq_append_cons_of_mem ends
            have line : newline ∉ read ++ before := by simp [whole, absent]
            rw [takeItem, cut_append absent] at h
            obtain ⟨rfl, rfl⟩ := Prod.mk.inj h
            rw [← List.append_assoc, Stretches.items_prepend_append line, item_dropReturn]
            rfl
          · have line : newline ∉ read ++ chunk := by simp [whole, ends]
            rw [takeItem, cut_of_notMem ends] at h
            exact ih line h

-- a letter and the end of its line, both of two bytes, in three chunks
example : takeItem [] [.bytes [0xC3], .interrupt, .bytes [0xA9, 13], .bytes [10, 0xFF]] =
    (some (.line "é"), [.bytes [0xFF]]) := by decide

/-- What a source delivers is told by its stretches. -/
theorem items_eq (source : Source) : source.items = (Stretches.ofSource source).items := by
  fun_induction items source with
  | case1 source rest next =>
      have coming := items_prepend_of_takeItem List.not_mem_nil next
      rw [Stretches.prepend_nil, eq_nil_of_takeItem_none next] at coming
      exact coming.symm
  | case2 source i rest next _ ih =>
      have coming := items_prepend_of_takeItem List.not_mem_nil next
      rw [Stretches.prepend_nil] at coming
      rw [coming, ih]
      rfl

end Source

end DuplexRpc
