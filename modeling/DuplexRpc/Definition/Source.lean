import DuplexRpc.Text.Utf8

/-!
# Sources of lines

A source hands out its bytes in chunks; a read may also fail, or be interrupted and
try again. Reading takes one item at a time: a line, or the failure that stands in
its place. Where the chunks are cut never shows. A failed read loses the part of a
line read before it, and a line that is not UTF-8 is lost whole.
-/

namespace DuplexRpc

/-- The outcome of one read from a source. -/
inductive Piece
  | bytes (chunk : Bytes)
  | failure (reason : String)
  | interrupt
  deriving DecidableEq, Repr

/-- What a source delivers at the place of a line. -/
inductive Item
  | line (text : String)
  | failure (reason : String)
  deriving DecidableEq, Repr

/-- The reads still to come. -/
abbrev Source := List Piece

namespace Source

/-- The source that hands out all its bytes at once. -/
def ofBytes (bytes : Bytes) : Source := [.bytes bytes]

def newline : UInt8 := 10

/-- The byte that is dropped when it stands directly before the end of a line. -/
def carriageReturn : UInt8 := 13

/-- The item for the bytes of one line, which must be UTF-8. -/
def item (bytes : Bytes) : Item :=
  match Text.ofUtf8? bytes with
  | some text => .line text
  | none => .failure "stream did not contain valid UTF-8"

def dropReturn (bytes : Bytes) : Bytes :=
  if bytes.getLast? = some carriageReturn then bytes.dropLast else bytes

/-- The bytes before the first newline, and those after it if there is one. -/
def cut (chunk : Bytes) : Bytes × Option Bytes :=
  (chunk.takeWhile (· != newline),
    match chunk.dropWhile (· != newline) with
    | [] => none
    | _ :: after => some after)

/-- Take the next item, given the bytes of its line that have been read already. The last line
needs no newline and then keeps its carriage return. -/
def takeItem (read : Bytes) : Source → Option Item × Source
  | [] => (if read.isEmpty then none else some (item read), [])
  | .interrupt :: rest => takeItem read rest
  | .failure reason :: rest => (some (.failure reason), rest)
  | .bytes chunk :: rest =>
    match cut chunk with
    | (before, some after) => (some (item (dropReturn (read ++ before))), .bytes after :: rest)
    | (before, none) => takeItem (read ++ before) rest

def next (source : Source) : Option Item × Source := takeItem [] source

/-- An upper bound on the items still to come. -/
def weight : Source → Nat
  | [] => 0
  | .bytes chunk :: rest => chunk.length + 1 + weight rest
  | _ :: rest => 1 + weight rest

theorem length_cut {chunk before after : Bytes} (h : cut chunk = (before, some after)) :
    after.length < chunk.length := by
  have shorter := (List.dropWhile_sublist (l := chunk) (· != newline)).length_le
  have second := congrArg Prod.snd h
  simp only [cut] at second
  split at second
  next => cases second
  next found =>
    obtain rfl := Option.some.inj second
    rw [found] at shorter
    exact shorter

theorem weight_takeItem {read : Bytes} {source : Source} {i : Item} {rest : Source}
    (h : takeItem read source = (some i, rest)) :
    rest.weight < source.weight ∨ (source = [] ∧ read ≠ []) := by
  induction source generalizing read with
  | nil =>
    refine .inr ⟨rfl, fun e => ?_⟩
    simp [takeItem, e] at h
  | cons piece later ih =>
    refine .inl ?_
    cases piece with
    | interrupt =>
      rcases ih (by simpa [takeItem] using h) with hw | ⟨rfl, -⟩
      · simp only [weight]; omega
      · have : rest = [] := by simpa [takeItem] using (Prod.mk.inj h).2.symm
        simp [this, weight]
    | failure reason =>
      obtain rfl : later = rest := by simpa [takeItem] using (Prod.mk.inj h).2
      simp only [weight]; omega
    | bytes chunk =>
      rw [takeItem] at h
      split at h
      next before after hc =>
        obtain rfl := (Prod.mk.inj h).2
        have := length_cut hc
        simp only [weight]; omega
      next before hc =>
        rcases ih h with hw | ⟨rfl, -⟩
        · simp only [weight]; omega
        · have : rest = [] := by simpa [takeItem] using (Prod.mk.inj h).2.symm
          simp only [this, weight]; omega

theorem weight_next {source rest : Source} {i : Item} (h : source.next = (some i, rest)) :
    rest.weight < source.weight :=
  (weight_takeItem h).resolve_right (fun e => e.2 rfl)

def items (source : Source) : List Item :=
  match h : source.next with
  | (none, _) => []
  | (some i, rest) =>
    have : rest.weight < source.weight := weight_next h
    i :: items rest
termination_by source.weight

end Source

end DuplexRpc
