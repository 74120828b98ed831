import DuplexRpc.Definition.Cursor
import DuplexRpc.Definition.Parse

/-!
# Reading definitions

A definition is read from a cursor, one line after another, and nothing is read beyond
the first fault. Before a line of the body is taken it is looked at, since the body may
end there. A line that has been seen can always be taken; the reader does not rely on it,
and would report an end of the source that it did not see coming.
-/

namespace DuplexRpc

namespace Cursor

/-- An upper bound on the lines and failures still to come. -/
def weight (c : Cursor) : Nat := c.source.weight + if c.ahead.isSome then 1 else 0

theorem next_of_read {c : Cursor} {text : String} {rest : Source}
    (h : c.read = (.ok (some text), rest)) : c.source.next = (some (.line text), rest) := by
  unfold read at h
  split at h
  next => cases h
  next line after found =>
    obtain ⟨same, rfl⟩ := Prod.mk.inj h
    obtain rfl := Option.some.inj (Except.ok.inj same)
    exact found
  next => cases h

/-- A line that has been seen is taken as it was seen, and the cursor comes closer to the end. -/
theorem line_of_peek {c looked : Cursor} {text : String}
    (h : c.peek = (.ok (some text), looked)) :
    looked.line = (.ok (some text),
        { looked with ahead := none, lineNumber := c.lineNumber + 1 }) ∧
      looked.lineNumber = c.lineNumber ∧ looked.source.weight < c.weight := by
  unfold peek at h
  split at h
  next seen ahead =>
    obtain ⟨same, rfl⟩ := Prod.mk.inj h
    obtain rfl := Option.some.inj (Except.ok.inj same)
    refine ⟨by rw [line, ahead], rfl, ?_⟩
    simp only [weight, ahead, Option.isSome_some, if_true]
    omega
  next ahead =>
    split at h
    next found rest read =>
      obtain ⟨same, rfl⟩ := Prod.mk.inj h
      obtain rfl := Except.ok.inj same
      have shorter := Source.weight_next (next_of_read read)
      refine ⟨rfl, rfl, ?_⟩
      simp only [weight, ahead]
      omega
    next => cases h

theorem weight_of_peek_line {c looked taken : Cursor} {seen text : String}
    (hp : c.peek = (.ok (some seen), looked)) (hl : looked.line = (.ok (some text), taken)) :
    taken.weight < c.weight := by
  obtain ⟨line, _, shorter⟩ := line_of_peek hp
  rw [line] at hl
  obtain ⟨_, rfl⟩ := Prod.mk.inj hl
  exact shorter

end Cursor

namespace Service

/-- Read the rest of the body and add what its lines declare. -/
def readBody (service : Service) (c : Cursor) : Except ParseError Service :=
  match hp : c.peek with
  | (.error reason, _) => .error ⟨c.lineNumber + 1, .unreadable reason⟩
  | (.ok none, _) => .ok service
  | (.ok (some _), looked) =>
    match hl : looked.line with
    | (.error reason, _) => .error ⟨looked.lineNumber + 1, .unreadable reason⟩
    | (.ok none, _) => .error ⟨c.lineNumber + 1, .noLine⟩
    | (.ok (some text), taken) =>
      have : taken.weight < c.weight := Cursor.weight_of_peek_line hp hl
      match service.judgeLine taken.lineNumber text.toList with
      | .ok service => service.readBody taken
      | .error fault => .error ⟨taken.lineNumber, fault⟩
termination_by c.weight

/-- Read a definition: the line that names the service, and then the body. -/
def read (c : Cursor) : Except ParseError Service :=
  match c.line with
  | (.error reason, _) => .error ⟨c.lineNumber + 1, .unreadable reason⟩
  | (.ok none, after) => .error ⟨after.lineNumber + 1, .noLine⟩
  | (.ok (some text), after) =>
    match Statement.nameLine? (Text.trimEnd text.toList) with
    | some name => (named name).readBody after
    | none => .error ⟨after.lineNumber, .noName⟩

end Service

end DuplexRpc
