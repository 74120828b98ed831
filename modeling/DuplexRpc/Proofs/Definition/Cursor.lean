import DuplexRpc.Definition.Reading
import DuplexRpc.Proofs.Definition.Lines

/-!
# What a cursor delivers

What a cursor delivers is what its source delivers, however often the cursor has been asked
to look ahead. So a definition that is read from a cursor is judged by the items of its
source alone.
-/

namespace DuplexRpc

namespace Cursor

/-- What is still to be taken from a cursor. -/
def items (c : Cursor) : List Item := (c.ahead.map Item.line).toList ++ c.source.items

theorem items_start (source : Source) : (start source).items = source.items := rfl

theorem items_of_ahead_none {c : Cursor} (h : c.ahead = none) : c.items = c.source.items := by
  rw [items, h]
  rfl

/-- What is read is the next item of the source. -/
theorem items_of_read (c : Cursor) : c.source.items =
    match c.read with
    | (.ok none, _) => []
    | (.ok (some text), rest) => .line text :: rest.items
    | (.error reason, rest) => .failure reason :: rest.items := by
  unfold read
  cases next : c.source.next with
  | mk item rest =>
    cases item with
    | none => exact Source.items_of_next_none next
    | some item => cases item <;> exact Source.items_of_next_some next

/-- Looking ahead takes nothing away but a failure. -/
theorem items_of_peek {c looked : Cursor} {seen : Except String (Option String)}
    (h : c.peek = (seen, looked)) : c.items =
      match seen with
      | .ok none => []
      | .ok (some text) => .line text :: looked.source.items
      | .error reason => .failure reason :: looked.items := by
  unfold peek at h
  split at h
  next text ahead =>
    obtain ⟨rfl, rfl⟩ := Prod.mk.inj h
    rw [items, ahead]
    rfl
  next ahead =>
    have coming := items_of_read c
    rw [items_of_ahead_none ahead, coming]
    split at h
    next found rest read =>
      obtain ⟨rfl, rfl⟩ := Prod.mk.inj h
      rw [read]
      cases found <;> rfl
    next reason rest read =>
      obtain ⟨rfl, rfl⟩ := Prod.mk.inj h
      have left : ({ c with source := rest } : Cursor).items = rest.items :=
        items_of_ahead_none ahead
      rw [read, left]

/-- Taking a line takes away the next item; lines are counted, failures are not. -/
theorem items_of_line {c after : Cursor} {taken : Except String (Option String)}
    (h : c.line = (taken, after)) :
    (c.items = match taken with
      | .ok none => []
      | .ok (some text) => .line text :: after.items
      | .error reason => .failure reason :: after.items) ∧
    after.lineNumber = match taken with
      | .ok (some _) => c.lineNumber + 1
      | _ => c.lineNumber := by
  unfold line at h
  split at h
  next text ahead =>
    obtain ⟨rfl, rfl⟩ := Prod.mk.inj h
    refine ⟨?_, rfl⟩
    rw [items, ahead]
    rfl
  next ahead =>
    have coming := items_of_read c
    rw [items_of_ahead_none ahead, coming]
    split at h
    next text rest read =>
      obtain ⟨rfl, rfl⟩ := Prod.mk.inj h
      have left : ({ c with source := rest, lineNumber := c.lineNumber + 1 } : Cursor).items =
        rest.items := items_of_ahead_none ahead
      rw [read, left]
      exact ⟨rfl, rfl⟩
    next result rest other read =>
      obtain ⟨rfl, rfl⟩ := Prod.mk.inj h
      have left : ({ c with source := rest } : Cursor).items = rest.items :=
        items_of_ahead_none ahead
      rw [read]
      cases result with
      | error reason =>
          rw [left]
          exact ⟨rfl, rfl⟩
      | ok found =>
          cases found with
          | none => exact ⟨rfl, rfl⟩
          | some text => exact absurd rfl (other text)

/-- What comes out of a cursor when lines are taken from it until there are no more. -/
inductive Delivers : Cursor → List Item → Prop
  | done {c after : Cursor} (line : c.line = (.ok none, after)) : Delivers c []
  | line {c after : Cursor} {text : String} {more : List Item}
      (line : c.line = (.ok (some text), after)) (later : Delivers after more) :
      Delivers c (.line text :: more)
  | failure {c after : Cursor} {reason : String} {more : List Item}
      (line : c.line = (.error reason, after)) (later : Delivers after more) :
      Delivers c (.failure reason :: more)

theorem delivers_items (c : Cursor) : c.Delivers c.items := by
  generalize coming : c.items = items
  induction items generalizing c with
  | nil =>
      cases line : c.line with
      | mk taken after =>
        have delivered := (items_of_line line).1
        rw [coming] at delivered
        cases taken with
        | error reason => cases delivered
        | ok found =>
            cases found with
            | none => exact .done line
            | some text => cases delivered
  | cons item more ih =>
      cases line : c.line with
      | mk taken after =>
        have delivered := (items_of_line line).1
        rw [coming] at delivered
        cases taken with
        | error reason =>
            obtain ⟨rfl, rest⟩ := List.cons.inj delivered
            exact .failure line (ih after rest.symm)
        | ok found =>
            cases found with
            | none => cases delivered
            | some text =>
                obtain ⟨rfl, rest⟩ := List.cons.inj delivered
                exact .line line (ih after rest.symm)

end Cursor

namespace Service

/-! ### Reading is judging what is delivered -/

theorem readBody_eq (s : Service) (c : Cursor) :
    s.readBody c = s.judgeItems (c.lineNumber + 1) c.items := by
  fun_induction readBody s c with
  | case1 s c reason looked hp => rw [Cursor.items_of_peek hp, judgeItems]
  | case2 s c looked hp => rw [Cursor.items_of_peek hp, judgeItems]
  | case3 s c seen looked hp reason after hl =>
      rw [(Cursor.line_of_peek hp).1] at hl
      cases hl
  | case4 s c seen looked hp after hl =>
      rw [(Cursor.line_of_peek hp).1] at hl
      cases hl
  | case5 s c seen looked hp text taken hl _ next judged ih =>
      obtain ⟨line, _, _⟩ := Cursor.line_of_peek hp
      rw [line] at hl
      obtain ⟨same, rfl⟩ := Prod.mk.inj hl
      obtain rfl := Option.some.inj (Except.ok.inj same)
      have judged : s.judgeLine (c.lineNumber + 1) seen.toList = .ok next := judged
      rw [ih, Cursor.items_of_peek hp]
      simp only [judgeItems, judged]
      rfl
  | case6 s c seen looked hp text taken hl _ fault judged =>
      obtain ⟨line, _, _⟩ := Cursor.line_of_peek hp
      rw [line] at hl
      obtain ⟨same, rfl⟩ := Prod.mk.inj hl
      obtain rfl := Option.some.inj (Except.ok.inj same)
      have judged : s.judgeLine (c.lineNumber + 1) seen.toList = .error fault := judged
      rw [Cursor.items_of_peek hp]
      simp only [judgeItems, judged]

/-- A definition is read from a cursor with the outcome to which its source is parsed. -/
theorem read_start (source : Source) : read (.start source) = parse source := by
  rw [parse, read, ← Cursor.items_start]
  cases line : (Cursor.start source).line with
  | mk taken after =>
    obtain ⟨items, number⟩ := Cursor.items_of_line line
    rw [items]
    cases taken with
    | error reason => rfl
    | ok found =>
        cases found with
        | none =>
            simp only at number
            simp only [number]
            rfl
        | some text =>
            simp only at number
            simp only [ofItems, readBody_eq, number]
            rfl

end Service

end DuplexRpc
