import DuplexRpc.Definition.Source

/-!
# Line cursors

A cursor walks over the lines of a source and can look one line ahead. A line that
was looked at is kept until it is taken, so looking again reads nothing. Only lines
that were taken count towards the line number; failures do not.
-/

namespace DuplexRpc

/-- A place between two lines of a source. -/
structure Cursor where
  source : Source
  /-- The next line, when it has been looked at already. -/
  ahead : Option String
  /-- How many lines have been taken. -/
  lineNumber : Nat
  deriving DecidableEq, Repr

namespace Cursor

def start (source : Source) : Cursor := { source, ahead := none, lineNumber := 0 }

/-- Read the next line from the source; at the end there is none, and it may fail. -/
def read (c : Cursor) : Except String (Option String) × Source :=
  match c.source.next with
  | (none, rest) => (.ok none, rest)
  | (some (.line text), rest) => (.ok (some text), rest)
  | (some (.failure reason), rest) => (.error reason, rest)

def peek (c : Cursor) : Except String (Option String) × Cursor :=
  match c.ahead with
  | some text => (.ok (some text), c)
  | none =>
    match c.read with
    | (.ok line, rest) => (.ok line, { c with source := rest, ahead := line })
    | (.error reason, rest) => (.error reason, { c with source := rest })

def line (c : Cursor) : Except String (Option String) × Cursor :=
  match c.ahead with
  | some text => (.ok (some text), { c with ahead := none, lineNumber := c.lineNumber + 1 })
  | none =>
    match c.read with
    | (.ok (some text), rest) =>
      (.ok (some text), { c with source := rest, lineNumber := c.lineNumber + 1 })
    | (result, rest) => (result, { c with source := rest })

end Cursor

end DuplexRpc
